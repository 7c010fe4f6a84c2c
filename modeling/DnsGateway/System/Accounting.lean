import DnsGateway.System.World

/-!
# Counters over whole runs

Every run counts a few metrics; what it counts is in balance by itself, and sums of balanced
counts are in balance.
-/

namespace DnsGateway

open Reasoning Bpf

def natFailures (es : List Event) : Nat :=
  es.countP fun | .natFailed _ => true | _ => false

def insertFailures (es : List Event) : Nat := es.count .insertFailed

/-- The relations between the counters `c`, given the numbers of ingress runs whose rewrite and
whose conntrack insert failed. -/
@[mk_iff]
structure Balanced (c : MetricId → Nat) (natFailed insertFailed : Nat) : Prop where
  queries : c .bypassActive + c .dnsQueries ≤ c .totalPackets
  lookups : c .suffixMatch + c .suffixNoMatch + c .parseError ≤ c .dnsQueries
  -- A looked-up query is redirected, left to the cluster, or fails in one of two ways.
  outcomes : c .suffixMatch + c .suffixNoMatch =
    c .redirected + c .clusterResolved + natFailed + insertFailed
  reverts : c .natRevertFail ≤ c .natError
  responses : c .egressSnat + c .egressConntrackMiss ≤ c .egressTotal

instance (c : MetricId → Nat) (natFailed insertFailed : Nat) :
    Decidable (Balanced c natFailed insertFailed) :=
  decidable_of_iff' _ (balanced_iff c natFailed insertFailed)

theorem Balanced.add {c d : MetricId → Nat} {n i n' i' : Nat} (hc : Balanced c n i)
    (hd : Balanced d n' i') : Balanced (fun id => c id + d id) (n + n') (i + i') := by
  rcases hc with ⟨hq, hl, ho, hr, hs⟩
  rcases hd with ⟨hq', hl', ho', hr', hs'⟩
  constructor <;> omega

/-- The run from `m` to `o` counts the metrics `ids`, in balance with the failures among `es`, and
pays for each new conntrack entry with a redirect. -/
structure Charges (m : Maps) (o : Outcome) (es : List Event) (ids : List MetricId) : Prop where
  metrics : o.maps.metricsMap = fun id => m.metricsMap id + ids.count id
  balanced : Balanced (fun id => ids.count id) (natFailures es) (insertFailures es)
  live : ids.count .egressSnat + o.maps.conntrackMap.keys.card ≤
    m.conntrackMap.keys.card + ids.count .redirected

theorem balanced_of_early {ids : List MetricId} (h : ids ∈ earlyCounts) :
    Balanced (fun id => ids.count id) 0 0 ∧ ids.count .egressSnat = 0 ∧
      ids.count .redirected = 0 := by
  revert ids
  decide

/-- What a run counts behind the suffix lookup, with the failures it stands for. -/
def lookupEnds : List (List MetricId × Nat × Nat) :=
  [([.clusterResolved], 0, 0), ([], 0, 1), ([.natError], 1, 0), ([.natError, .natRevertFail], 1, 0),
    ([.redirected], 0, 0)]

theorem balanced_of_lookup (hit : Option UInt32) {rest : List MetricId} {n i : Nat}
    (h : (rest, n, i) ∈ lookupEnds) :
    Balanced (fun id => (lookupCounts hit ++ rest).count id) n i ∧
      (lookupCounts hit ++ rest).count .egressSnat = 0 ∧
      (lookupCounts hit ++ rest).count .redirected = rest.count .redirected := by
  have htable : ∀ (matched : Bool), ∀ e ∈ lookupEnds,
      let ids := [.totalPackets, .dnsQueries,
        if matched then MetricId.suffixMatch else .suffixNoMatch] ++ e.1
      Balanced (fun id => ids.count id) e.2.1 e.2.2 ∧ ids.count .egressSnat = 0 ∧
        ids.count .redirected = e.1.count .redirected := by
    decide
  exact htable hit.isSome (rest, n, i) h

theorem natFailureCounts_mem (rc : Int) : (natFailureCounts rc, 1, 0) ∈ lookupEnds := by
  unfold natFailureCounts
  split <;> decide

theorem ingress_charges {ok : Helpers} {now : UInt64} {skb : SkBuff} {m : Maps}
    (hdelete : ok .ctDelete = true) (hok : ∀ id, ok (.metricLookup id) = true) :
    ∃ ids, Charges m (dnsGatewayIngress ok now skb m)
      (queryEvents skb now (dnsGatewayIngress ok now skb m)) ids := by
  unfold queryEvents
  cases (ingress_end ok now skb m).2 with
  | early ids hids _ hmaps _ hins hnat =>
      have hbalanced := balanced_of_early hids
      rw [hnat, hins]
      refine ⟨ids, hmaps.counted hok, hbalanced.1, ?_⟩
      rw [hmaps.conntrack, hbalanced.2.1, hbalanced.2.2]
      omega
  | cluster _ scratch w _ _ hmaps _ hins hnat =>
      have hbalanced := balanced_of_lookup (ruleHit ok m scratch w)
        (show ([.clusterResolved], 0, 0) ∈ lookupEnds by decide)
      rw [hnat, hins]
      refine ⟨_, hmaps.counted hok, hbalanced.1, ?_⟩
      rw [hmaps.conntrack, hbalanced.2.1]
      omega
  | insertFailed _ scratch w _ _ _ hmaps _ hins hnat =>
      have hbalanced := balanced_of_lookup (ruleHit ok m scratch w)
        (show ([], 0, 1) ∈ lookupEnds by decide)
      rw [List.append_nil] at hbalanced
      rw [hnat, hins]
      refine ⟨_, hmaps.counted hok, hbalanced.1, ?_⟩
      rw [hmaps.conntrack, hbalanced.2.1]
      omega
  | natFailed _ scratch w _ _ _ hrc hmaps _ _ hnat =>
      have hbalanced := balanced_of_lookup (ruleHit ok m scratch w)
        (natFailureCounts_mem (ingressNat ok skb m.configMap).1)
      have hct := hmaps.conntrack
      rw [deleteEntry, if_pos hdelete, erase_insert_self] at hct
      have hcard := card_keys_erase_le m.conntrackMap skb.queryKey
      rw [hnat]
      dsimp only
      rw [if_neg (by omega)]
      refine ⟨_, hmaps.counted hok, hbalanced.1, ?_⟩
      rw [hct, hbalanced.2.1]
      omega
  | redirected _ scratch w _ _ _ _ hmaps _ _ hnat =>
      have hbalanced := balanced_of_lookup (ruleHit ok m scratch w)
        (show ([.redirected], 0, 0) ∈ lookupEnds by decide)
      have hcard := card_keys_insert_le m.conntrackMap skb.queryKey (redirectEntry m.configMap now)
      rw [hnat]
      refine ⟨_, hmaps.counted hok, hbalanced.1, ?_⟩
      rw [hmaps.conntrack, hbalanced.2.1, hbalanced.2.2, List.count_singleton_self]
      omega

theorem balanced_of_response {ids : List MetricId}
    (h : ids ∈ [[.egressTotal], [.egressTotal, .egressConntrackMiss], [.egressTotal, .natError],
      [.egressTotal, .natError, .natRevertFail], [.egressTotal, .egressSnat]]) :
    Balanced (fun id => ids.count id) 0 0 := by
  revert ids
  decide

theorem egress_charges {ok : Helpers} {now : UInt64} {skb : SkBuff} {m : Maps}
    (hdelete : ok .ctDelete = true) (hok : ∀ id, ok (.metricLookup id) = true) :
    ∃ ids, Charges m (dnsGatewayEgress ok now skb m)
      (responseEvents skb (dnsGatewayEgress ok now skb m)) ids := by
  have hevents : natFailures (responseEvents skb (dnsGatewayEgress ok now skb m)) = 0 ∧
      insertFailures (responseEvents skb (dnsGatewayEgress ok now skb m)) = 0 := by
    unfold responseEvents
    split <;> exact ⟨rfl, rfl⟩
  have hcharges : ∀ {ids ct}, MapsAfter ok ids ct m (dnsGatewayEgress ok now skb m).maps →
      Balanced (fun id => ids.count id) 0 0 →
      ids.count .egressSnat + ct.keys.card ≤ m.conntrackMap.keys.card →
      ∃ ids, Charges m (dnsGatewayEgress ok now skb m)
        (responseEvents skb (dnsGatewayEgress ok now skb m)) ids := by
    intro ids ct hmaps hbalanced hlive
    refine ⟨ids, hmaps.counted hok, ?_, ?_⟩
    · rw [hevents.1, hevents.2]
      exact hbalanced
    · rw [hmaps.conntrack]
      omega
  have hunchanged : ∀ {ids},
      MapsAfter ok ids m.conntrackMap m (dnsGatewayEgress ok now skb m).maps →
      Balanced (fun id => ids.count id) 0 0 → ids.count .egressSnat = 0 →
      ∃ ids, Charges m (dnsGatewayEgress ok now skb m)
        (responseEvents skb (dnsGatewayEgress ok now skb m)) ids := by
    intro ids hmaps hbalanced hnone
    apply hcharges hmaps hbalanced
    omega
  have herase := card_keys_erase_le m.conntrackMap skb.responseKey
  cases (egress_end ok now skb m).2 with
  | early _ hmaps => exact hunchanged hmaps (balanced_of_response (by decide)) rfl
  | miss _ _ hmaps => exact hunchanged hmaps (balanced_of_response (by decide)) rfl
  | stale v _ _ _ hmaps =>
      rw [deleteEntry, if_pos hdelete] at hmaps
      apply hcharges hmaps (balanced_of_response (by decide))
      rw [show List.count .egressSnat [MetricId.egressTotal, .egressConntrackMiss] = 0 from rfl]
      omega
  | natFailed v _ _ _ _ hmaps =>
      unfold natFailureCounts at hmaps
      split at hmaps
      · exact hunchanged hmaps (balanced_of_response (by decide)) rfl
      · exact hunchanged hmaps (balanced_of_response (by decide)) rfl
  | rewritten v _ hlookup _ _ hmaps =>
      -- The entry that pays for the rewrite is gone afterwards.
      have hmem : skb.responseKey ∈ m.conntrackMap := Finmap.mem_of_lookup_eq_some hlookup
      have hcard := card_keys_erase_of_mem hmem
      rw [deleteEntry, if_pos hdelete] at hmaps
      apply hcharges hmaps (balanced_of_response (by decide))
      rw [show List.count .egressSnat [MetricId.egressTotal, .egressSnat] = 1 from rfl]
      omega

/-! ## Whole runs -/

structure Accounts (w : World) (es : List Event) : Prop where
  balanced : Balanced w.maps.metricsMap (natFailures es) (insertFailures es)
  live : w.maps.metricsMap .egressSnat + w.maps.conntrackMap.keys.card ≤
    w.maps.metricsMap .redirected

/-- The lookups in `metrics_map` go through: its indices are in range. -/
def Step.MetricsOk : Step → Prop
  | .ingress ok _ => ∀ id, ok (.metricLookup id) = true
  | .egress ok _ => ∀ id, ok (.metricLookup id) = true
  | _ => True

theorem Accounts.charge {w : World} {es es' : List Event} {o : Outcome} {ids : List MetricId}
    (h : Accounts w es) (hcharges : Charges w.maps o es' ids) :
    Accounts { w with maps := o.maps } (es ++ es') := by
  have hlive := h.live
  have hcost := hcharges.live
  constructor
  · rw [natFailures, List.countP_append, insertFailures, List.count_append]
    dsimp only
    rw [hcharges.metrics]
    exact h.balanced.add hcharges.balanced
  · dsimp only
    rw [hcharges.metrics]
    dsimp only
    omega

theorem Accounts.step {w : World} {es : List Event} (h : Accounts w es) {s : Step}
    (hdelete : s.DeletesOk) (hmetrics : s.MetricsOk) :
    Accounts (w.step s) (es ++ w.emit s) := by
  have hquiet : Accounts w (es ++ []) := by
    rw [List.append_nil]
    exact h
  cases s with
  | ingress ok skb =>
      rcases ingress_charges hdelete hmetrics with ⟨ids, hcharges⟩
      exact h.charge hcharges
  | egress ok skb =>
      rcases egress_charges hdelete hmetrics with ⟨ids, hcharges⟩
      exact h.charge hcharges
  | evict key =>
      have hlive := h.live
      have hcard := card_keys_erase_le w.maps.conntrackMap key
      constructor
      · rw [natFailures, List.countP_append, insertFailures, List.count_append]
        exact h.balanced
      · change _ + (w.maps.conntrackMap.erase key).keys.card ≤ _
        change w.maps.metricsMap .egressSnat + _ ≤ w.maps.metricsMap .redirected
        omega
  | tick t => exact ⟨hquiet.balanced, hquiet.live⟩
  | setBypass lookupOk updateOk on => exact ⟨hquiet.balanced, hquiet.live⟩
  | setConfig cfg => exact ⟨hquiet.balanced, hquiet.live⟩
  | setRules rules => exact ⟨hquiet.balanced, hquiet.live⟩
  | cpu scratch => exact ⟨hquiet.balanced, hquiet.live⟩

theorem World.run_accounts (w : World) (hzero : w.maps.metricsMap = fun _ => 0)
    (hempty : w.maps.conntrackMap = ∅) {steps : List Step}
    (hsteps : ∀ s ∈ steps, s.DeletesOk ∧ s.MetricsOk) :
    Accounts (w.run steps) (w.events steps) := by
  have hstart : Accounts w [] := by
    constructor
    · rw [hzero]
      decide
    · rw [hzero, hempty]
      decide
  have hstep : ∀ w es s, Step.DeletesOk s ∧ s.MetricsOk → Accounts w es →
      Accounts (w.step s) (es ++ w.emit s) := fun w es s hs h => h.step hs.1 hs.2
  have hrun := foldl_log_invariant hstep hstart hsteps
  rw [List.nil_append] at hrun
  exact hrun

/-- From zero counters and an empty `conntrack_map`, the counters add up after every run; the
failures are read off the log. -/
theorem run_counters (w₀ : World) (hzero : w₀.maps.metricsMap = fun _ => 0)
    (hempty : w₀.maps.conntrackMap = ∅) (steps : List Step)
    (hsteps : ∀ s ∈ steps, s.DeletesOk ∧ s.MetricsOk) :
    let c := (w₀.run steps).maps.metricsMap
    c .bypassActive + c .dnsQueries ≤ c .totalPackets ∧
    c .suffixMatch + c .suffixNoMatch + c .parseError ≤ c .dnsQueries ∧
    c .suffixMatch + c .suffixNoMatch = c .redirected + c .clusterResolved +
      natFailures (w₀.events steps) + insertFailures (w₀.events steps) ∧
    c .natRevertFail ≤ c .natError ∧
    c .egressSnat + c .egressConntrackMiss ≤ c .egressTotal ∧
    c .egressSnat + (w₀.run steps).maps.conntrackMap.keys.card ≤ c .redirected := by
  have h := w₀.run_accounts hzero hempty hsteps
  exact ⟨h.balanced.queries, h.balanced.lookups, h.balanced.outcomes, h.balanced.reverts,
    h.balanced.responses, h.live⟩

/-- The redirect of the sample query pays for its entry. -/
theorem sample_counters :
    let w := sampleWorld.run [.ingress .allOk shortQuery]
    w.maps.metricsMap .redirected = 1 ∧
      w.maps.metricsMap .egressSnat + w.maps.conntrackMap.keys.card ≤ 1 := by
  have hcounted := (shortQuery_redirected 0
    (show sampleWorld.maps.configMap = sampleConfig actionHostResolve from rfl) rfl).counted
  have hcounters := run_counters sampleWorld rfl rfl [.ingress .allOk shortQuery] (by
    intro s hs
    rw [List.mem_singleton.mp hs]
    exact ⟨rfl, fun _ => rfl⟩)
  have hone : (sampleWorld.run [.ingress .allOk shortQuery]).maps.metricsMap .redirected = 1 :=
    hcounted
  refine ⟨hone, ?_⟩
  rw [← hone]
  exact hcounters.2.2.2.2.2

end DnsGateway
