import DnsGateway.Smp.Machine
import DnsGateway.System.Tracking

/-!
# Draining behind the bypass bit

`run` sets the bypass bit before it detaches.  Once it is set, and the ingress runs that had read it
before are over, no entry is made; and five seconds later no packet is changed any more.
-/

namespace DnsGateway.Smp

open DnsGateway.Reasoning DnsGateway.Bpf DnsGateway.Ebpf DnsGateway.Health

/-- A move that does not clear the bypass bit. -/
structure StaysBypassed (s t : Shared) : Prop extends Keeps s t where
  bypass : s.config.bypass ≠ 0 → t.config.bypass ≠ 0

theorem exec_config (cpu : Nat) (o : Access) (s : Shared) :
    (s.exec cpu o).2.config = s.config := by
  cases o <;> rfl

theorem exec_staysBypassed (cpu : Nat) (o : Access) (s : Shared) :
    StaysBypassed s (s.exec cpu o).2 := by
  refine ⟨exec_keeps cpu o s, fun h => ?_⟩
  rw [exec_config]
  exact h

instance : Rely StaysBypassed where
  refl := fun s => ⟨Keeps.refl s, fun h => h⟩
  trans := fun _ _ _ hst htu =>
    ⟨hst.toKeeps.trans _ _ _ htu.toKeeps, fun h => htu.bypass (hst.bypass h)⟩
  keeps := fun h => h.toKeeps
  own := fun cpu o s _ => exec_staysBypassed cpu o s

/-- `SetBypass(false)`. -/
def Clears : Act → Prop
  | .env (.setBypass _ _ on) => on = false
  | _ => False

theorem outside_staysBypassed {e : Outside} {s t : Shared} (h : s.outside e = some t)
    (hclear : ¬ Clears (.env e)) : StaysBypassed s t := by
  refine ⟨outside_keeps h, fun hbypass => ?_⟩
  cases e with
  | setBypass lookupOk updateOk on =>
      cases h
      dsimp only
      rcases setBypass_cases lookupOk updateOk on s.config with ⟨-, hset⟩ | ⟨-, hset, -⟩
      · have hon : on = true := Bool.eq_true_of_not_eq_false hclear
        rw [hset, hon]
        exact (by decide : (1 : UInt16) ≠ 0)
      · rw [hset]
        exact hbypass
  | tick now =>
      simp only [Shared.outside] at h
      split at h
      · cases h
        exact hbypass
      · cases h
  | evict key =>
      cases h
      exact hbypass
  | recycle p q =>
      rcases Option.map_eq_some_iff.mp h with ⟨ct, hct, rfl⟩
      exact hbypass

theorem step_staysBypassed {c d : Cpus} {a : Act} (hstep : CpusStep c a d) (ha : ¬ Clears a) :
    StaysBypassed c.mem d.mem := by
  cases hstep with
  | spawn i j hfree => exact Rely.refl _
  | access i j o k origin made ht => exact exec_staysBypassed i o c.mem
  | finish i j r origin made ht => exact Rely.refl _
  | env e m he => exact outside_staysBypassed he ha

def Job.isIngress : Job → Bool
  | .ingress _ _ _ => true
  | .egress _ _ => false

/-- The bypass bit is set, every ingress run under way has started behind it, and the elements are
still `elems`. -/
structure Drained (s₀ : Shared) (elems : List (ConntrackKey × ConntrackValue)) (c : Cpus)
    (past : List Act) : Prop extends Reached s₀ c past where
  bypass : c.mem.config.bypass ≠ 0
  elems : c.mem.conntrack.elems = elems
  ingress : ∀ i t, c.threads i = some t → t.job.isIngress = true →
    t.origin.config.bypass ≠ 0 ∧
      Reaches (Shared.exec i) StaysBypassed t.job.prog t.origin t.made t.rest c.mem

-- A run that starts behind the bit reads it, and leaves its packet alone.
theorem IngressAtomic.bypassed {ok : Helpers} {scratch : ScratchBuf} {skb : SkBuff} {s u : Shared}
    {ops : List Access} {r : Result} (h : IngressAtomic StaysBypassed ok scratch skb s u ops r)
    (hs : s.config.bypass ≠ 0) : r.skb = skb ∧ r.inserted = none := by
  rcases h.on_maps with ⟨t, now, m, hst, hconfig, -, -, -, hm⟩
  have hnot : ¬ IsQuery m.configMap skb := by
    intro hquery
    rw [hconfig] at hquery
    exact hst.bypass hs hquery.bypass
  rw [← hm.skb, ← hm.inserted]
  cases (ingress_end ok now skb m).2 with
  | early _ _ _ _ hskb hins => exact ⟨hskb, hins⟩
  | cluster _ _ _ hadm => exact absurd hadm.query hnot
  | insertFailed _ _ _ hadm => exact absurd hadm.query hnot
  | natFailed _ _ _ hadm => exact absurd hadm.query hnot
  | redirected _ _ _ hadm => exact absurd hadm.query hnot

section Step

variable {s₀ : Shared} {elems : List (ConntrackKey × ConntrackValue)} {c d : Cpus}
  {past : List Act} {a : Act}

-- No CPU is about to insert.
theorem Drained.not_inserts (h : Drained s₀ elems c past) {i : Nat} {job : Job}
    {key : ConntrackKey} {val : ConntrackValue} {k : Unit → Run Result} {origin : Shared}
    {made : List Access}
    (ht : c.threads i = some ⟨job, .access (.ctUpdate key val) k, origin, made⟩) : False := by
  cases job with
  | egress ok skb =>
      rcases (h.tracked i _ ht).next Keeps.refl Keeps.trans with ⟨ops, r, m, hruns, -⟩
      exact (egress_atomic hruns).not_update (List.mem_append_right _ List.mem_cons_self)
  | ingress ok scratch skb =>
      rcases h.ingress i _ ht rfl with ⟨horigin, hreaches⟩
      rcases hreaches.next Rely.refl Rely.trans with ⟨ops, r, m, hruns, -⟩
      rcases (ingress_atomic hruns).update (List.mem_append_right _ List.mem_cons_self) with
        ⟨t, hst, hquery, -⟩
      exact hst.bypass horigin hquery.bypass

theorem Drained.step (h : Drained s₀ elems c past) (hstep : CpusStep c a d) (ha : ¬ Clears a) :
    Drained s₀ elems d (past ++ [a]) := by
  have hstays := step_staysBypassed hstep ha
  refine ⟨h.toReached.step hstep, hstays.bypass h.bypass, ?_, fun i t ht hjob => ?_⟩
  · rcases step_elems hstep with hsame | ⟨e, i, job, k, origin, made, ht, -⟩
    · exact hsame.trans h.elems
    · exact absurd ht fun ht => h.not_inserts ht
  · rcases hstep.thread ht with ⟨-, hnew, hmem⟩ | ⟨t', ht', hjob', horigin, -, hreaches⟩
    · rw [hnew, hmem]
      exact ⟨h.bypass, .refl⟩
    · rw [← hjob'] at hjob
      rcases h.ingress i t' ht' hjob with ⟨hbypass, hreached⟩
      rw [← horigin]
      exact ⟨hbypass, horigin ▸ hreaches _ (fun _ => hstays) hreached⟩

end Step

theorem bypass_drains (s₀ : Shared) (h₀ : Timely s₀) (acts₀ : List Act) (c : Cpus)
    (hrun₀ : (Cpus.start s₀).run acts₀ = some c) (hbypass : c.mem.config.bypass ≠ 0)
    (hquiet : ∀ i t, c.threads i = some t → t.job.isIngress = false) (acts : List Act) (d : Cpus)
    (hrun : c.run acts = some d) (hacts : ∀ a ∈ acts, ¬ Clears a) :
    d.mem.conntrack.elems = c.mem.conntrack.elems ∧
    (∀ i ok scratch skb s ops r, d.Finished i (.ingress ok scratch skb) s ops r →
      r.skb = skb ∧ r.inserted = none) ∧
    (∀ i ok skb s ops r, d.Finished i (.egress ok skb) s ops r →
      c.mem.clock.toNat + 5 * 10 ^ 9 < s.clock.toNat → r.skb = skb ∧ r.natRc = none) := by
  have hstart : Drained s₀ c.mem.conntrack.elems c acts₀ := by
    refine ⟨run_reached hrun₀, hbypass, rfl, fun i t ht hjob => ?_⟩
    rw [hquiet i t ht] at hjob
    cases hjob
  have h : Drained s₀ c.mem.conntrack.elems d (acts₀ ++ acts) :=
    foldlM_history_invariant_of (fun c past a d ha hnext h => h.step (machine_next_step hnext) ha)
      hstart hrun hacts
  refine ⟨h.elems, fun i ok scratch skb s ops r hdone => ?_,
    fun i ok skb s ops r hdone hlate => ?_⟩
  · rcases h.ingress i _ hdone rfl with ⟨horigin, hreaches⟩
    exact (ingress_atomic (hreaches.finished Rely.refl Rely.trans)).bypassed horigin
  · have hruns := (h.tracked i _ hdone).finished Keeps.refl Keeps.trans
    rcases (egress_atomic hruns).cases with
      ⟨hnat, hskb⟩ | ⟨now, v, hlo, -, hseen, hfresh, -⟩
    · exact ⟨hskb, hnat⟩
    · -- every element is older than five seconds
      rcases hseen.elements with ⟨p, q, val, e, e', -, hq, -, -, -, htime, -⟩
      have he : e ∈ c.mem.conntrack.elems := by
        rw [← h.elems]
        exact List.mem_of_getElem? hq
      have hold := run_timely h₀ hrun₀ e he
      rw [← htime] at hold
      rw [UInt64.le_iff_toNat_le] at hold hlo
      dsimp only at hlo
      have hpast : v.timestampNs ≤ now := UInt64.le_iff_toNat_le.mpr (by omega)
      rw [elapsed_le_ttl_iff hpast] at hfresh
      omega

def shutdownActs : List Act := queryActs ++ [.finish 0, .env (.setBypass true true true)]

def lateActs : List Act :=
  [.env (.tick 6000000000), .spawn 1 (.egress .allOk shortResponse)] ++
    List.replicate 8 (.access 1)

theorem late_response_drained :
    ∃ c s ops r, (Cpus.start sampleShared).run (shutdownActs ++ lateActs) = some c ∧
      c.Finished 1 (.egress .allOk shortResponse) s ops r ∧ r.skb = shortResponse := by
  have hdone : ∃ c s ops r,
      (Cpus.start sampleShared).run (shutdownActs ++ lateActs) = some c ∧
      c.Finished 1 (.egress .allOk shortResponse) s ops r ∧ (s.clock == 6000000000) = true := by
    apply run_done (f := fun s _ => s.clock == 6000000000)
    · decide +kernel
    · simp [shutdownActs, lateActs, queryActs]
  have hshut : ((Cpus.start sampleShared).run shutdownActs).any (fun c =>
      (c.threads 0).isNone && c.mem.config.bypass == 1 && c.mem.clock == 0) = true := by
    decide +kernel
  rcases hdone with ⟨d, s, ops, r, hrun, hdone, hclock⟩
  rcases run_append hrun with ⟨c, hrun₀, hrun₁⟩
  rw [hrun₀, Option.any_some, Bool.and_eq_true, Bool.and_eq_true] at hshut
  rcases hshut with ⟨⟨hfree, hbypass⟩, hzero⟩
  have hquiet : ∀ i t, c.threads i = some t → t.job.isIngress = false := by
    intro i t ht
    have hspawn := (run_reached hrun₀).spawned i t ht
    obtain ⟨rfl, -⟩ : i = 0 ∧ t.job = .ingress .allOk zeroScratch shortQuery := by
      simpa [shutdownActs, queryActs] using hspawn
    rw [ht] at hfree
    cases hfree
  have hlate : c.mem.clock.toNat + 5 * 10 ^ 9 < s.clock.toNat := by
    rw [eq_of_beq hzero, eq_of_beq hclock]
    decide
  have h := bypass_drains sampleShared (fun e he => by cases he) shutdownActs c hrun₀
    (by rw [eq_of_beq hbypass]; decide) hquiet lateActs d hrun₁ (by simp [lateActs, Clears])
  exact ⟨d, s, ops, r, hrun, hdone, (h.2.2 1 _ _ s ops r hdone hlate).1⟩

end DnsGateway.Smp
