import DnsGateway.System.World

/-!
# Conntrack over whole runs

`conntrack_map` is a view of the event log: an entry is what was granted last to its key, and a
grant without its entry has expired.
-/

namespace DnsGateway

open Reasoning Bpf Ebpf

/-- The redirect of `k` that is still unanswered after the events `es`: where the query was sent,
and when. -/
def granted (k : ConntrackKey) (es : List Event) : Option (UInt32 × UInt64) :=
  outstanding Event.key? Event.grant? k es

theorem granted_snoc (k : ConntrackKey) (es : List Event) (e : Event) :
    granted k (es ++ [e]) = if e.key? = some k then e.grant? else granted k es :=
  outstanding_snoc Event.key? Event.grant? k es e

-- The elapsed time of an event that is not in the future.
theorem elapsed_toNat {now t : UInt64} (h : t ≤ now) :
    (now - t).toNat = now.toNat - t.toNat := UInt64.toNat_sub_of_le now t h

/-- What the slot of one key holds, against what the log grants the key. -/
structure Accurate (slot : Option ConntrackValue) (clock : UInt64)
    (grant : Option (UInt32 × UInt64)) : Prop where
  live : ∀ v, slot = some v → grant = some (v.corednsIp, v.timestampNs)
  -- Entries disappear without an event only when they have expired.
  lost : ∀ a t, grant = some (a, t) → slot = none → clock - t > conntrackTtlNs
  past : ∀ a t, grant = some (a, t) → t ≤ clock

def Tracks (ct : ConntrackMap) (clock : UInt64) (es : List Event) : Prop :=
  ∀ k, Accurate (ct.lookup k) clock (granted k es)

theorem Accurate.empty (clock : UInt64) : Accurate none clock none := by
  constructor
  · intro v h
    cases h
  · intro a t h
    cases h
  · intro a t h
    cases h

theorem Accurate.fresh (origin : UInt32) (clock : UInt64) :
    Accurate (some { corednsIp := origin, timestampNs := clock }) clock (some (origin, clock)) := by
  constructor
  · intro v h
    rw [← Option.some.inj h]
  · intro a t _ h
    cases h
  · intro a t h
    cases h
    exact UInt64.le_refl _

theorem Accurate.expired {v : ConntrackValue} {clock : UInt64} {grant : Option (UInt32 × UInt64)}
    (h : Accurate (some v) clock grant) (hold : clock - v.timestampNs > conntrackTtlNs) :
    Accurate none clock grant := by
  constructor
  · intro x hx
    cases hx
  · intro a t hgrant _
    rw [h.live v rfl] at hgrant
    cases hgrant
    exact hold
  · exact h.past

theorem Accurate.later {slot : Option ConntrackValue} {clock clock' : UInt64}
    {grant : Option (UInt32 × UInt64)} (h : Accurate slot clock grant) (hle : clock ≤ clock') :
    Accurate slot clock' grant := by
  have hpast : ∀ a t, grant = some (a, t) → t ≤ clock' := by
    intro a t hgrant
    exact UInt64.le_trans (h.past a t hgrant) hle
  constructor
  · exact h.live
  · intro a t hgrant hnone
    have hold := h.lost a t hgrant hnone
    rw [gt_iff_lt, UInt64.lt_iff_toNat_lt] at hold ⊢
    rw [elapsed_toNat (h.past a t hgrant)] at hold
    rw [elapsed_toNat (hpast a t hgrant)]
    rw [UInt64.le_iff_toNat_le] at hle
    omega
  · exact hpast

section Steps

variable {ct : ConntrackMap} {clock : UInt64} {es : List Event}

theorem Tracks.silent (h : Tracks ct clock es) {e : Event} (he : e.key? = none) :
    Tracks ct clock (es ++ [e]) := by
  intro k
  rw [granted_snoc, he]
  exact h k

-- An event concerns the slot of its key only.
theorem Tracks.hit (h : Tracks ct clock es) {e : Event} {key : ConntrackKey} {ct' : ConntrackMap}
    (hkey : e.key? = some key) (hslot : Accurate (ct'.lookup key) clock e.grant?)
    (hothers : ∀ k, k ≠ key → ct'.lookup k = ct.lookup k) : Tracks ct' clock (es ++ [e]) := by
  intro k
  rw [granted_snoc, hkey]
  by_cases hk : k = key
  · rw [hk, if_pos rfl]
    exact hslot
  · rw [hothers k hk, if_neg]
    · exact h k
    · intro he
      exact hk (Option.some.inj he).symm

theorem Tracks.grant (h : Tracks ct clock es) (key : ConntrackKey) (origin : UInt32) :
    Tracks (ct.insert key { corednsIp := origin, timestampNs := clock }) clock
      (es ++ [.redirected key origin clock]) := by
  apply h.hit rfl
  · rw [Finmap.lookup_insert]
    exact Accurate.fresh origin clock
  · intro k hk
    exact Finmap.lookup_insert_of_ne _ hk

theorem Tracks.revoke (h : Tracks ct clock es) {e : Event} {key : ConntrackKey}
    (hkey : e.key? = some key) (hgrant : e.grant? = none) :
    Tracks (ct.erase key) clock (es ++ [e]) := by
  apply h.hit hkey
  · rw [Finmap.lookup_erase, hgrant]
    exact Accurate.empty clock
  · intro k hk
    exact Finmap.lookup_erase_ne hk

theorem Tracks.expire (h : Tracks ct clock es) {key : ConntrackKey} {v : ConntrackValue}
    (hv : ct.lookup key = some v) (hold : clock - v.timestampNs > conntrackTtlNs) :
    Tracks (ct.erase key) clock es := by
  intro k
  have hk := h k
  by_cases hsame : k = key
  · rw [hsame] at hk ⊢
    rw [hv] at hk
    rw [Finmap.lookup_erase]
    exact hk.expired hold
  · rw [Finmap.lookup_erase_ne hsame]
    exact hk

theorem Tracks.tick (h : Tracks ct clock es) {clock' : UInt64} (hle : clock ≤ clock') :
    Tracks ct clock' es := fun k => (h k).later hle

end Steps

theorem Tracks.step {w : World} {es : List Event}
    (h : Tracks w.maps.conntrackMap w.clock es) {s : Step} (hs : s.DeletesOk) :
    Tracks (w.step s).maps.conntrackMap (w.step s).clock (es ++ w.emit s) := by
  have hquiet : Tracks w.maps.conntrackMap w.clock (es ++ []) := by
    rw [List.append_nil]
    exact h
  cases s with
  | ingress ok skb =>
      change Tracks (dnsGatewayIngress ok w.clock skb w.maps).maps.conntrackMap w.clock
        (es ++ queryEvents skb w.clock (dnsGatewayIngress ok w.clock skb w.maps))
      rcases ingress_conntrack hs with ⟨he, hct⟩ | ⟨he, hct⟩ | ⟨he | he, hct⟩
      · rw [he, hct]
        exact h.grant skb.queryKey skb.daddr
      · rw [he, hct]
        exact h.revoke rfl rfl
      · rw [he, hct]
        exact h.silent rfl
      · rw [he, hct]
        exact hquiet
  | egress ok skb =>
      change Tracks (dnsGatewayEgress ok w.clock skb w.maps).maps.conntrackMap w.clock
        (es ++ responseEvents skb (dnsGatewayEgress ok w.clock skb w.maps))
      rcases egress_conntrack hs with ⟨he, hct⟩ | ⟨he, hct⟩ | ⟨v, he, hv, hold, hct⟩
      · rw [he, hct]
        exact h.revoke rfl rfl
      · rw [he, hct]
        exact hquiet
      · rw [he, hct, List.append_nil]
        exact h.expire hv hold
  | tick t =>
      change Tracks w.maps.conntrackMap (if w.clock ≤ t then t else w.clock) (es ++ [])
      split
      · rename_i hle
        exact hquiet.tick hle
      · exact hquiet
  | evict key => exact h.revoke rfl rfl
  | setBypass lookupOk updateOk on => exact hquiet
  | setConfig cfg => exact hquiet
  | setRules rules => exact hquiet
  | cpu scratch => exact hquiet

-- From an empty map, the log of a run accounts for every entry.
theorem World.run_tracks (w : World) (hempty : w.maps.conntrackMap = ∅) {steps : List Step}
    (hsteps : ∀ s ∈ steps, s.DeletesOk) :
    Tracks (w.run steps).maps.conntrackMap (w.run steps).clock (w.events steps) := by
  have hstart : Tracks w.maps.conntrackMap w.clock [] := by
    rw [hempty]
    exact fun _ => Accurate.empty w.clock
  let Inv := fun (w : World) es => Tracks w.maps.conntrackMap w.clock es
  have hstep : ∀ w es s, Step.DeletesOk s → Inv w es → Inv (w.step s) (es ++ w.emit s) :=
    fun w es s hs h => Tracks.step h hs
  have hrun := foldl_log_invariant hstep hstart hsteps
  rw [List.nil_append] at hrun
  exact hrun

/-! ## Responses after a run -/

/-- The last thing that happened to `k` is the redirect of a query that was sent to `origin`, at
most 5 seconds before `now`. -/
def AwaitsAnswer (k : ConntrackKey) (now : UInt64) (origin : UInt32) (es : List Event) : Prop :=
  ∃ before time after, es = before ++ .redirected k origin time :: after ∧
    (∀ e ∈ after, e.key? ≠ some k) ∧ now.toNat ≤ time.toNat + 5 * 10 ^ 9

theorem Event.eq_redirected_iff {e : Event} {k : ConntrackKey} {origin : UInt32} {time : UInt64} :
    e = .redirected k origin time ↔ e.key? = some k ∧ e.grant? = some (origin, time) := by
  constructor
  · intro h
    rw [h]
    exact ⟨rfl, rfl⟩
  · rintro ⟨hkey, hgrant⟩
    cases e with
    | redirected key origin' time' =>
        cases hkey
        cases hgrant
        rfl
    | natFailed key => cases hgrant
    | insertFailed => cases hgrant
    | restored key => cases hgrant
    | evicted key => cases hgrant

theorem awaitsAnswer_iff_granted {k : ConntrackKey} {now : UInt64} {origin : UInt32}
    {es : List Event} :
    AwaitsAnswer k now origin es ↔
      ∃ time, granted k es = some (origin, time) ∧ now.toNat ≤ time.toNat + 5 * 10 ^ 9 := by
  constructor
  · rintro ⟨before, time, after, hes, hafter, htime⟩
    refine ⟨time, ?_, htime⟩
    apply (outstanding_eq_some_iff _ _ _ _ _).mpr
    exact ⟨before, _, after, hes, rfl, rfl, hafter⟩
  · rintro ⟨time, hgranted, htime⟩
    rcases (outstanding_eq_some_iff _ _ _ _ _).mp hgranted with
      ⟨before, e, after, hes, hkey, hgrant, hafter⟩
    rw [Event.eq_redirected_iff.mpr ⟨hkey, hgrant⟩] at hes
    exact ⟨before, time, after, hes, hafter, htime⟩

-- In the clock's own arithmetic, which does not wrap for a time in the past.
theorem elapsed_le_ttl_iff {now t : UInt64} (h : t ≤ now) :
    now - t ≤ conntrackTtlNs ↔ now.toNat ≤ t.toNat + 5 * 10 ^ 9 := by
  have httl : conntrackTtlNs.toNat = 5 * 10 ^ 9 := by decide
  rw [UInt64.le_iff_toNat_le, elapsed_toNat h, httl]
  omega

theorem Tracks.awaitsAnswer_iff {ct : ConntrackMap} {clock : UInt64} {es : List Event}
    (h : Tracks ct clock es) (k : ConntrackKey) (origin : UInt32) :
    AwaitsAnswer k clock origin es ↔
      ∃ v, ct.lookup k = some v ∧ v.corednsIp = origin ∧
        clock - v.timestampNs ≤ conntrackTtlNs := by
  rw [awaitsAnswer_iff_granted]
  constructor
  · rintro ⟨time, hgranted, htime⟩
    have hfresh := (elapsed_le_ttl_iff ((h k).past origin time hgranted)).mpr htime
    cases hlookup : ct.lookup k with
    | none => exact absurd ((h k).lost origin time hgranted hlookup) (UInt64.not_lt.mpr hfresh)
    | some v =>
        have hlive := (h k).live v hlookup
        rw [hgranted, Option.some.injEq, Prod.mk.injEq] at hlive
        refine ⟨v, rfl, hlive.1.symm, ?_⟩
        rw [← hlive.2]
        exact hfresh
  · rintro ⟨v, hlookup, rfl, hfresh⟩
    have hlive := (h k).live v hlookup
    exact ⟨v.timestampNs, hlive, (elapsed_le_ttl_iff ((h k).past _ _ hlive)).mp hfresh⟩

/-- After any run from an empty `conntrack_map`, an egress run touches responses of the host
resolver only.  When its own helpers go through, it rewrites a response if and only if the query
with its key awaits an answer, to the address that query was sent to. -/
theorem run_answers_iff (w₀ : World) (hempty : w₀.maps.conntrackMap = ∅) (steps : List Step)
    (hsteps : ∀ s ∈ steps, s.DeletesOk) (ok : Helpers) (skb : SkBuff) :
    let w := w₀.run steps
    let o := w.egress ok skb
    (o.skb ≠ skb ∨ o.natRc = some 0 → IsResponse w.maps.configMap skb) ∧
    (IsResponse w.maps.configMap skb → AnswerHelpers ok →
      (o.natRc = some 0 ↔
        ∃ origin, AwaitsAnswer skb.responseKey w.clock origin (w₀.events steps)) ∧
      (∀ origin, AwaitsAnswer skb.responseKey w.clock origin (w₀.events steps) →
        o.skb.saddr = origin) ∧
      (o.natRc ≠ some 0 → o.skb = skb)) := by
  intro w o
  have htracks := w₀.run_tracks hempty hsteps
  refine ⟨egress_changes_response, fun hresp hok => ?_⟩
  have hanswer := egress_answers w.clock hok hresp
  by_cases hlive : ∃ v, w.maps.conntrackMap.lookup skb.responseKey = some v ∧
      w.clock - v.timestampNs ≤ conntrackTtlNs
  · rcases hlive with ⟨v, hlookup, hfresh⟩
    have hrewritten := hanswer.1 v hlookup hfresh
    refine ⟨⟨fun _ => ?_, fun _ => hrewritten.1⟩, ?_, fun h => absurd hrewritten.1 h⟩
    · exact ⟨v.corednsIp, (htracks.awaitsAnswer_iff _ _).mpr ⟨v, hlookup, rfl, hfresh⟩⟩
    · intro origin hawaits
      rcases (htracks.awaitsAnswer_iff _ _).mp hawaits with ⟨v', hlookup', horigin, -⟩
      rw [hlookup, Option.some.injEq] at hlookup'
      rw [← horigin, ← hlookup']
      exact hrewritten.2
  · have hleft := hanswer.2 fun v hlookup hfresh => hlive ⟨v, hlookup, hfresh⟩
    have hnone : ∀ origin, ¬ AwaitsAnswer skb.responseKey w.clock origin (w₀.events steps) := by
      intro origin hawaits
      rcases (htracks.awaitsAnswer_iff _ _).mp hawaits with ⟨v, hlookup, -, hfresh⟩
      exact hlive ⟨v, hlookup, hfresh⟩
    refine ⟨⟨fun h => ?_, fun ⟨origin, h⟩ => absurd h (hnone origin)⟩,
      fun origin h => absurd h (hnone origin), fun _ => hleft.2⟩
    rw [show o.natRc = none from hleft.1] at h
    cases h

/-- The response to a redirected query comes back from CoreDNS's address. -/
theorem shortResponse_answered :
    let o := (sampleWorld.run [.ingress .allOk shortQuery]).egress .allOk shortResponse
    o.natRc = some 0 ∧ o.skb.saddr = u32OfLE 10 96 0 10 := by
  intro o
  have hredirected : (sampleWorld.ingress .allOk shortQuery).natRc = some 0 :=
    (shortQuery_redirected 0 rfl rfl).nat
  have hevents : sampleWorld.events [.ingress .allOk shortQuery] =
      [.redirected shortQuery.queryKey shortQuery.daddr 0] := by
    change queryEvents shortQuery 0 (sampleWorld.ingress .allOk shortQuery) ++ [] = _
    rw [queryEvents_of_redirected hredirected]
    rfl
  have hresponse :
      IsResponse (sampleWorld.ingress .allOk shortQuery).maps.configMap shortResponse := by
    rw [World.ingress, (ingress_settings _ _ _ _).1]
    exact shortResponse_isResponse actionHostResolve
  have hawaits : AwaitsAnswer shortResponse.responseKey 0 (u32OfLE 10 96 0 10)
      (sampleWorld.events [.ingress .allOk shortQuery]) := by
    rw [hevents, shortResponse_key]
    exact ⟨[], 0, [], rfl, fun e he => absurd he List.not_mem_nil, by decide⟩
  have hanswers := (run_answers_iff sampleWorld rfl [.ingress .allOk shortQuery]
    (by intro s hs; rw [List.mem_singleton.mp hs]; rfl) .allOk shortResponse).2
    hresponse answerHelpers_allOk
  exact ⟨hanswers.1.mpr ⟨_, hawaits⟩, hanswers.2.1 _ hawaits⟩

end DnsGateway
