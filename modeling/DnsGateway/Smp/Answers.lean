import DnsGateway.Smp.Machine
import DnsGateway.System.Tracking

/-!
# Answers on several CPUs

A response is rewritten from an element that another CPU made for the query, or from one whose
memory was used again between the lookup and the read.  Either way it goes out from CoreDNS.
-/

namespace DnsGateway.Smp

open DnsGateway.Reasoning DnsGateway.Bpf

/-- An element made for a query to CoreDNS that some CPU was given. -/
structure Granted (s₀ : Shared) (past : List Act) (e : ConntrackKey × ConntrackValue) : Prop where
  asked : ∃ i ok scratch query, .spawn i (.ingress ok scratch query) ∈ past ∧
    query.queryKey = e.1 ∧ IsQuery { s₀.config with bypass := 0 } query
  corednsIp : e.2.corednsIp = s₀.config.corednsIp

theorem Granted.later {s₀ : Shared} {past : List Act} {e : ConntrackKey × ConntrackValue}
    (h : Granted s₀ past e) (a : Act) : Granted s₀ (past ++ [a]) e := by
  rcases h.asked with ⟨i, ok, scratch, query, hspawn, hquery⟩
  exact ⟨⟨i, ok, scratch, query, List.mem_append_left _ hspawn, hquery⟩, h.corednsIp⟩

/-- The runs in flight, and the elements up to now. -/
structure Sound (s₀ : Shared) (c : Cpus) (past : List Act) : Prop extends Reached s₀ c past where
  granted : ∀ e ∈ c.mem.conntrack.elems, Granted s₀ past e

theorem Sound.step {s₀ : Shared} {c d : Cpus} {past : List Act} {a : Act} (h : Sound s₀ c past)
    (hstep : CpusStep c a d) : Sound s₀ d (past ++ [a]) := by
  refine ⟨h.toReached.step hstep, fun e he => Granted.later ?_ a⟩
  rcases h.toReached.inserts hstep he with hold | ⟨i, ok, scratch, query, hins⟩
  · exact h.granted e hold
  · rcases hins.job with ⟨t, ht, hjob⟩
    have hspawn := h.spawned i t ht
    rw [hjob] at hspawn
    exact ⟨⟨i, ok, scratch, query, hspawn, hins.key, hins.query⟩, hins.corednsIp⟩

theorem run_sound {s₀ : Shared} (hempty : s₀.conntrack.elems = []) {acts : List Act} {c : Cpus}
    (hrun : (Cpus.start s₀).run acts = some c) : Sound s₀ c acts := by
  have hstart : Sound s₀ (Cpus.start s₀) [] := by
    refine ⟨reached_start s₀, fun e he => ?_⟩
    replace he : e ∈ s₀.conntrack.elems := he
    rw [hempty] at he
    cases he
  exact foldlM_history_invariant (fun c past a d hnext h => h.step (machine_next_step hnext)) []
    hstart hrun

-- The time of a fresh entry is not in the future, unless the clock is about to wrap.
theorem fresh_time {now time clock : UInt64} (hfresh : now - time ≤ conntrackTtlNs)
    (htime : time ≤ clock) (hclock : clock.toNat + 5 * 10 ^ 9 < 2 ^ 64) :
    time ≤ now ∧ now.toNat ≤ time.toNat + 5 * 10 ^ 9 := by
  have hle : time ≤ now := by
    rw [UInt64.le_iff_toNat_le] at hfresh htime ⊢
    have httl : conntrackTtlNs.toNat = 5 * 10 ^ 9 := by decide
    rw [UInt64.toNat_sub, httl] at hfresh
    have hnow := now.toNat_lt
    omega
  exact ⟨hle, (elapsed_le_ttl_iff hle).mp hfresh⟩

theorem answers_granted (s₀ : Shared) (hempty : s₀.conntrack.elems = []) (acts : List Act)
    (c : Cpus) (hrun : (Cpus.start s₀).run acts = some c)
    (hclock : c.mem.clock.toNat + 5 * 10 ^ 9 < 2 ^ 64) (i : Nat) (ok : Helpers) (skb : SkBuff)
    (s : Shared) (ops : List Access) (r : Result)
    (hdone : c.Finished i (.egress ok skb) s ops r) (hnat : r.natRc = some 0) :
    r.skb.saddr = s₀.config.corednsIp ∧
    (∃ j ok' scratch query, .spawn j (.ingress ok' scratch query) ∈ acts ∧
      query.queryKey = skb.responseKey ∧ IsQuery { s₀.config with bypass := 0 } query) ∧
    ∃ p q val e now, c.mem.conntrack.elems[p]? = some (skb.responseKey, val) ∧
      c.mem.conntrack.elems[q]? = some e ∧ p ≤ q ∧ (c.mem.conntrack.cell p = p → q = p) ∧
      s.clock ≤ now ∧ now ≤ c.mem.clock ∧
      e.2.timestampNs ≤ now ∧ now.toNat ≤ e.2.timestampNs.toNat + 5 * 10 ^ 9 := by
  have h := run_sound hempty hrun
  have hstart : Timely s₀ := fun e he => by
    rw [hempty] at he
    cases he
  have htimely := run_timely hstart hrun
  have hruns := (h.tracked i _ hdone).finished Keeps.refl Keeps.trans
  rcases (egress_atomic hruns).cases with
    ⟨hnone, -⟩ | ⟨now, v, hlo, hhi, hseen, hfresh, hresp, hrc, hskb⟩
  · rw [hnone] at hnat
    cases hnat
  · have hsaddr : r.skb.saddr = v.corednsIp := by
      rw [hskb]
      exact (egressNat_spec ok skb v hresp.udp).rewritten (Option.some_inj.mp (hrc.symm.trans hnat))
    rw [hsaddr]
    rcases hseen.elements with ⟨p, q, val, e, e', hp, hq, hpq, hcell, he', htime, hcoredns⟩
    have he : e ∈ c.mem.conntrack.elems := List.mem_of_getElem? hq
    have hasked := (h.granted _ (List.mem_of_getElem? hp)).asked
    rw [htime] at hfresh
    rw [hcoredns]
    exact ⟨(h.granted e' he').corednsIp, hasked, p, q, val, e, now, hp, hq, hpq, hcell, hlo, hhi,
      fresh_time hfresh (htimely e he) hclock⟩

theorem sample_answer_granted :
    ∃ c s ops r, (Cpus.start sampleShared).run sampleActs = some c ∧
      c.Finished 1 (.egress .allOk shortResponse) s ops r ∧
      r.skb.saddr = sampleShared.config.corednsIp := by
  rcases sampleActs_done with ⟨c, s, ops, r, hrun, hdone, hnat⟩
  have hzero : ((Cpus.start sampleShared).run sampleActs).map (·.mem.clock) = some 0 := by
    decide +kernel
  rw [hrun, Option.map_some, Option.some_inj] at hzero
  have hclock : c.mem.clock.toNat + 5 * 10 ^ 9 < 2 ^ 64 := by
    rw [hzero]
    decide
  exact ⟨c, s, ops, r, hrun, hdone,
    (answers_granted sampleShared rfl sampleActs c hrun hclock 1 _ _ s ops r hdone
      (eq_of_beq hnat)).1⟩

end DnsGateway.Smp
