import DnsGateway.Reasoning.History
import DnsGateway.Bpf.Query
import DnsGateway.Bpf.Egress
import DnsGateway.Ebpf.Maps

/-!
# The datapath as a system

Packets of all pods, the controller's writes, the clock and the LRU eviction act on the shared maps
in any order.  A program run is one step; the helper answers of the run are part of the step.
-/

namespace DnsGateway

open Reasoning Bpf Ebpf

structure World where
  maps : Maps
  clock : UInt64

inductive Step where
  | ingress (ok : Helpers) (skb : SkBuff)
  | egress (ok : Helpers) (skb : SkBuff)
  | setBypass (lookupOk updateOk on : Bool)
  | setConfig (cfg : GatewayConfig)
  | setRules (rules : SuffixRules)
  -- The next run is on a CPU whose scratch slot holds `s`.
  | cpu (s : ScratchBuf)
  | tick (t : UInt64)
  | evict (key : ConntrackKey)

def World.ingress (w : World) (ok : Helpers) (skb : SkBuff) : Outcome :=
  dnsGatewayIngress ok w.clock skb w.maps

def World.egress (w : World) (ok : Helpers) (skb : SkBuff) : Outcome :=
  dnsGatewayEgress ok w.clock skb w.maps

def World.step (w : World) : Step → World
  | .ingress ok skb => { w with maps := (w.ingress ok skb).maps }
  | .egress ok skb => { w with maps := (w.egress ok skb).maps }
  | .setBypass lookupOk updateOk on =>
      { w with maps :=
        { w.maps with configMap := (Ebpf.setBypass lookupOk updateOk on w.maps.configMap).2 } }
  | .setConfig cfg => { w with maps := { w.maps with configMap := cfg } }
  | .setRules rules => { w with maps := { w.maps with suffixRules := rules } }
  | .cpu s => { w with maps := { w.maps with scratchMap := s } }
  -- The clock never goes back.
  | .tick t => { w with clock := if w.clock ≤ t then t else w.clock }
  | .evict key =>
      { w with maps := { w.maps with conntrackMap := w.maps.conntrackMap.erase key } }

def World.run (w : World) (steps : List Step) : World := steps.foldl World.step w

/-! ## What happens to a key -/

inductive Event where
  -- A query with this key, sent to `origin`, was redirected.
  | redirected (key : ConntrackKey) (origin : UInt32) (time : UInt64)
  | natFailed (key : ConntrackKey)
  | insertFailed
  | restored (key : ConntrackKey)
  | evicted (key : ConntrackKey)
  deriving DecidableEq

def Event.key? : Event → Option ConntrackKey
  | .redirected key _ _ => some key
  | .natFailed key => some key
  | .insertFailed => none
  | .restored key => some key
  | .evicted key => some key

def Event.grant? : Event → Option (UInt32 × UInt64)
  | .redirected _ origin time => some (origin, time)
  | _ => none

def queryEvents (skb : SkBuff) (now : UInt64) (o : Outcome) : List Event :=
  match o.natRc with
  | some rc =>
      if rc = 0 then [.redirected skb.queryKey skb.daddr now] else [.natFailed skb.queryKey]
  | none => if o.inserted = some false then [.insertFailed] else []

def responseEvents (skb : SkBuff) (o : Outcome) : List Event :=
  if o.natRc = some 0 then [.restored skb.responseKey] else []

def World.emit (w : World) : Step → List Event
  | .ingress ok skb => queryEvents skb w.clock (w.ingress ok skb)
  | .egress ok skb => responseEvents skb (w.egress ok skb)
  | .evict key => [.evicted key]
  | _ => []

/-- The events of a run, in order. -/
def World.events (w : World) (steps : List Step) : List Event :=
  logFrom World.step World.emit w steps

/-- Conntrack deletes go through; everything else may fail. -/
def Step.DeletesOk : Step → Prop
  | .ingress ok _ => ok .ctDelete = true
  | .egress ok _ => ok .ctDelete = true
  | _ => True

theorem queryEvents_of_redirected {skb : SkBuff} {now : UInt64} {o : Outcome}
    (h : o.natRc = some 0) : queryEvents skb now o = [.redirected skb.queryKey skb.daddr now] := by
  rw [queryEvents, h]
  rfl

/-! ## Effects of single runs -/

-- The programs only read the settings.
theorem ingress_settings (ok : Helpers) (now : UInt64) (skb : SkBuff) (m : Maps) :
    (dnsGatewayIngress ok now skb m).maps.configMap = m.configMap ∧
      (dnsGatewayIngress ok now skb m).maps.suffixRules = m.suffixRules := by
  cases (ingress_end ok now skb m).2 with
  | early _ _ _ hmaps => exact ⟨hmaps.config, hmaps.rules⟩
  | cluster _ _ _ _ _ hmaps => exact ⟨hmaps.config, hmaps.rules⟩
  | insertFailed _ _ _ _ _ _ hmaps => exact ⟨hmaps.config, hmaps.rules⟩
  | natFailed _ _ _ _ _ _ _ hmaps => exact ⟨hmaps.config, hmaps.rules⟩
  | redirected _ _ _ _ _ _ _ hmaps => exact ⟨hmaps.config, hmaps.rules⟩

theorem egress_settings (ok : Helpers) (now : UInt64) (skb : SkBuff) (m : Maps) :
    (dnsGatewayEgress ok now skb m).maps.configMap = m.configMap ∧
      (dnsGatewayEgress ok now skb m).maps.suffixRules = m.suffixRules := by
  cases (egress_end ok now skb m).2 with
  | early _ hmaps => exact ⟨hmaps.config, hmaps.rules⟩
  | miss _ _ hmaps => exact ⟨hmaps.config, hmaps.rules⟩
  | stale _ _ _ _ hmaps => exact ⟨hmaps.config, hmaps.rules⟩
  | natFailed _ _ _ _ _ hmaps => exact ⟨hmaps.config, hmaps.rules⟩
  | rewritten _ _ _ _ _ hmaps => exact ⟨hmaps.config, hmaps.rules⟩

-- An ingress run writes, deletes or leaves the entry of its own key, and says so.
theorem ingress_conntrack {ok : Helpers} {now : UInt64} {skb : SkBuff} {m : Maps}
    (hdelete : ok .ctDelete = true) :
    (queryEvents skb now (dnsGatewayIngress ok now skb m) =
        [.redirected skb.queryKey skb.daddr now] ∧
      (dnsGatewayIngress ok now skb m).maps.conntrackMap = m.conntrackMap.insert skb.queryKey
        { corednsIp := skb.daddr, timestampNs := now }) ∨
    (queryEvents skb now (dnsGatewayIngress ok now skb m) = [.natFailed skb.queryKey] ∧
      (dnsGatewayIngress ok now skb m).maps.conntrackMap =
        m.conntrackMap.erase skb.queryKey) ∨
    ((queryEvents skb now (dnsGatewayIngress ok now skb m) = [.insertFailed] ∨
        queryEvents skb now (dnsGatewayIngress ok now skb m) = []) ∧
      (dnsGatewayIngress ok now skb m).maps.conntrackMap = m.conntrackMap) := by
  unfold queryEvents
  cases (ingress_end ok now skb m).2 with
  | early _ _ _ hmaps _ hins hnat =>
      rw [hnat, hins]
      exact Or.inr (Or.inr ⟨Or.inr rfl, hmaps.conntrack⟩)
  | cluster _ _ _ _ _ hmaps _ hins hnat =>
      rw [hnat, hins]
      exact Or.inr (Or.inr ⟨Or.inr rfl, hmaps.conntrack⟩)
  | insertFailed _ _ _ _ _ _ hmaps _ hins hnat =>
      rw [hnat, hins]
      exact Or.inr (Or.inr ⟨Or.inl rfl, hmaps.conntrack⟩)
  | natFailed _ _ _ _ _ _ hrc hmaps _ _ hnat =>
      have hct := hmaps.conntrack
      rw [deleteEntry, if_pos hdelete, erase_insert_self] at hct
      rw [hnat]
      dsimp only
      rw [if_neg (by omega)]
      exact Or.inr (Or.inl ⟨rfl, hct⟩)
  | redirected _ _ _ hadm _ _ _ hmaps _ _ hnat =>
      have hct := hmaps.conntrack
      rw [redirectEntry, ← hadm.query.daddr] at hct
      rw [hnat]
      exact Or.inl ⟨rfl, hct⟩

-- An egress run uses up the entry it answers from, drops an expired one, or leaves the map alone.
theorem egress_conntrack {ok : Helpers} {now : UInt64} {skb : SkBuff} {m : Maps}
    (hdelete : ok .ctDelete = true) :
    (responseEvents skb (dnsGatewayEgress ok now skb m) = [.restored skb.responseKey] ∧
      (dnsGatewayEgress ok now skb m).maps.conntrackMap =
        m.conntrackMap.erase skb.responseKey) ∨
    (responseEvents skb (dnsGatewayEgress ok now skb m) = [] ∧
      (dnsGatewayEgress ok now skb m).maps.conntrackMap = m.conntrackMap) ∨
    (∃ v, responseEvents skb (dnsGatewayEgress ok now skb m) = [] ∧
      m.conntrackMap.lookup skb.responseKey = some v ∧
      now - v.timestampNs > conntrackTtlNs ∧
      (dnsGatewayEgress ok now skb m).maps.conntrackMap =
        m.conntrackMap.erase skb.responseKey) := by
  unfold responseEvents
  cases (egress_end ok now skb m).2 with
  | early _ hmaps _ hnat =>
      rw [hnat]
      exact Or.inr (Or.inl ⟨rfl, hmaps.conntrack⟩)
  | miss _ _ hmaps _ hnat =>
      rw [hnat]
      exact Or.inr (Or.inl ⟨rfl, hmaps.conntrack⟩)
  | stale v _ hlookup hold hmaps _ hnat =>
      have hct := hmaps.conntrack
      rw [deleteEntry, if_pos hdelete] at hct
      rw [hnat]
      exact Or.inr (Or.inr ⟨v, rfl, hlookup, hold, hct⟩)
  | natFailed v _ _ _ hrc hmaps _ hnat =>
      rw [hnat, if_neg]
      · exact Or.inr (Or.inl ⟨rfl, hmaps.conntrack⟩)
      · intro hzero
        have hz := Option.some.inj hzero
        omega
  | rewritten v _ _ _ _ hmaps _ hnat =>
      have hct := hmaps.conntrack
      rw [deleteEntry, if_pos hdelete] at hct
      rw [hnat]
      exact Or.inl ⟨if_pos rfl, hct⟩

/-! ## A sample exchange -/

def sampleWorld : World where
  maps := sampleMaps actionHostResolve .empty
  clock := 0

/-- The query for `a.` of the sample pod. -/
def shortQuery : SkBuff := sampleQuery (wireName [[97]]) (by decide)

theorem shortQuery_walkable : Walkable shortQuery [[97]] 0 := by
  refine ⟨by decide, by decide, by decide, by decide, Or.inl rfl, [0, 1, 0, 1], ?_⟩
  exact sampleQuery_question _ _

-- With the host-resolve default and no rules, it is redirected.
theorem shortQuery_redirected (now : UInt64) {m : Maps}
    (hconfig : m.configMap = sampleConfig actionHostResolve) (hrules : m.suffixRules = .empty) :
    Redirected now shortQuery m (dnsGatewayIngress .allOk now shortQuery m) := by
  apply (ingress_allOk now shortQuery_walkable _).1
  · rw [resolve_noRules hrules, hconfig]
    rfl
  · rw [hconfig]
    exact sampleQuery_isQuery _ _ _

/-- The header of the host resolver's response to it: 10.0.0.2:53 to 10.0.0.5:40000. -/
def shortResponse : SkBuff where
  data := [0x02, 0, 0, 0, 0, 0x02, 0x02, 0, 0, 0, 0, 0x01, 0x08, 0x00,
    0x45, 0, 0, 0x28, 0, 0, 0x40, 0, 64, 17, 0, 0, 10, 0, 0, 2, 10, 0, 0, 5,
    0, 53, 0x9C, 0x40, 0, 0x14, 0, 0,
    0x12, 0x34, 0x81, 0x80, 0, 1, 0, 0, 0, 0, 0, 0]
  len_lt := by decide

theorem shortResponse_isResponse (defaultAction : UInt32) :
    IsResponse (sampleConfig defaultAction) shortResponse := by
  refine ⟨⟨⟨rfl, rfl⟩, rfl, by decide, ⟨by decide, rfl⟩, by decide⟩, rfl, rfl, by decide⟩

theorem shortResponse_key : shortResponse.responseKey = shortQuery.queryKey := by decide

end DnsGateway
