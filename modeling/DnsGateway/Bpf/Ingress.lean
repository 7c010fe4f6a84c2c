import Mathlib.Data.Nat.Bitwise
import DnsGateway.Bpf.Programs

/-!
# What one ingress run can do

A run of `dns_gateway_ingress` either returns before the suffix lookup, having counted at most
four metrics, or it is `Admitted` and continues in `ingressResolve`.
-/

namespace DnsGateway.Bpf

open DnsGateway.Reasoning

/-! ## Counting only counts -/

/-- The counters after one `increment_metric`. -/
def bump (ok : Helpers) (id : MetricId) (f : MetricId → Nat) : MetricId → Nat :=
  if ok (.metricLookup id) then Function.update f id (f id + 1) else f

/-- The counters after the metrics `ids` were counted in turn. -/
def bumpAll (ok : Helpers) (ids : List MetricId) (f : MetricId → Nat) : MetricId → Nat :=
  ids.foldl (fun f id => bump ok id f) f

theorem bumpAll_append (ok : Helpers) (ids ids' : List MetricId) (f : MetricId → Nat) :
    bumpAll ok (ids ++ ids') f = bumpAll ok ids' (bumpAll ok ids f) := List.foldl_append

-- A counter grows by how often it is counted, or not at all when its lookup fails.
theorem bumpAll_apply (ok : Helpers) (ids : List MetricId) (f : MetricId → Nat) (id : MetricId) :
    bumpAll ok ids f id = f id + if ok (.metricLookup id) then ids.count id else 0 := by
  induction ids generalizing f with
  | nil => simp only [bumpAll, List.foldl_nil, List.count_nil, ite_self, Nat.add_zero]
  | cons x ids ih =>
      rw [bumpAll, List.foldl_cons, ← bumpAll, ih, bump]
      by_cases hx : x = id
      · subst hx
        cases hok : ok (.metricLookup x) with
        | false => simp only [Bool.false_eq_true, if_false]
        | true =>
            simp only [if_true, Function.update_self, List.count_cons_self]
            omega
      · rw [List.count_cons_of_ne hx]
        split
        · rw [Function.update_of_ne (Ne.symm hx)]
        · rfl

theorem bumpAll_of_not_mem (ok : Helpers) {ids : List MetricId} {id : MetricId} (h : id ∉ ids)
    (f : MetricId → Nat) : bumpAll ok ids f id = f id := by
  rw [bumpAll_apply, List.count_eq_zero.mpr h, ite_self, Nat.add_zero]

section Counting

variable (ok : Helpers) (id : MetricId) (m : Maps)

@[simp] theorem incrementMetric_metricsMap :
    (m.incrementMetric ok id).metricsMap = bump ok id m.metricsMap := by
  unfold Maps.incrementMetric bump
  split <;> rfl

@[simp] theorem incrementMetric_conntrackMap :
    (m.incrementMetric ok id).conntrackMap = m.conntrackMap := by
  unfold Maps.incrementMetric
  split <;> rfl

@[simp] theorem incrementMetric_configMap :
    (m.incrementMetric ok id).configMap = m.configMap := by
  unfold Maps.incrementMetric
  split <;> rfl

@[simp] theorem incrementMetric_suffixRules :
    (m.incrementMetric ok id).suffixRules = m.suffixRules := by
  unfold Maps.incrementMetric
  split <;> rfl

@[simp] theorem incrementMetric_scratchMap :
    (m.incrementMetric ok id).scratchMap = m.scratchMap := by
  unfold Maps.incrementMetric
  split <;> rfl

@[simp] theorem configLookup_incrementMetric :
    (m.incrementMetric ok id).configLookup ok = m.configLookup ok := by
  rw [Maps.configLookup, incrementMetric_configMap, Maps.configLookup]

/-- The counts of a failed rewrite. -/
def natFailureCounts (rc : Int) : List MetricId :=
  if rc = -2 then [.natError, .natRevertFail] else [.natError]

theorem countNatFailure_eq (rc : Int) :
    m.countNatFailure ok rc =
      (natFailureCounts rc).foldl (fun m id => m.incrementMetric ok id) m := by
  unfold Maps.countNatFailure natFailureCounts
  split <;> rfl

end Counting

/-- `b` is `a` with the metrics `ids` counted and the conntrack entries `ct`; the scratch buffer
is left open. -/
structure MapsAfter (ok : Helpers) (ids : List MetricId) (ct : ConntrackMap) (a b : Maps) :
    Prop where
  metrics : b.metricsMap = bumpAll ok ids a.metricsMap
  conntrack : b.conntrackMap = ct
  config : b.configMap = a.configMap
  rules : b.suffixRules = a.suffixRules

-- With every counter in reach, the counts are exact.
theorem MapsAfter.counted {ok : Helpers} {ids : List MetricId} {ct : ConntrackMap} {a b : Maps}
    (h : MapsAfter ok ids ct a b) (hok : ∀ id, ok (.metricLookup id) = true) :
    b.metricsMap = fun id => a.metricsMap id + ids.count id := by
  rw [h.metrics]
  funext id
  rw [bumpAll_apply, if_pos (hok id)]

theorem MapsAfter.refl (ok : Helpers) (m : Maps) : MapsAfter ok [] m.conntrackMap m m :=
  ⟨rfl, rfl, rfl, rfl⟩

theorem MapsAfter.incrementMetric {ok : Helpers} {ids : List MetricId} {ct : ConntrackMap}
    {a b : Maps} (h : MapsAfter ok ids ct a b) (id : MetricId) :
    MapsAfter ok (ids ++ [id]) ct a (b.incrementMetric ok id) where
  metrics := by rw [incrementMetric_metricsMap, h.metrics, bumpAll_append]; rfl
  conntrack := by rw [incrementMetric_conntrackMap, h.conntrack]
  config := by rw [incrementMetric_configMap, h.config]
  rules := by rw [incrementMetric_suffixRules, h.rules]

theorem MapsAfter.countNatFailure {ok : Helpers} {ids : List MetricId} {ct : ConntrackMap}
    {a b : Maps} (h : MapsAfter ok ids ct a b) (rc : Int) :
    MapsAfter ok (ids ++ natFailureCounts rc) ct a (b.countNatFailure ok rc) := by
  rw [countNatFailure_eq]
  unfold natFailureCounts
  split
  · have h2 := (h.incrementMetric .natError).incrementMetric .natRevertFail
    rwa [List.append_assoc] at h2
  · exact h.incrementMetric .natError

theorem MapsAfter.setScratch {ok : Helpers} {ids : List MetricId} {ct : ConntrackMap}
    {a b : Maps} (h : MapsAfter ok ids ct a b) (s : ScratchBuf) :
    MapsAfter ok ids ct a { b with scratchMap := s } :=
  ⟨h.metrics, h.conntrack, h.config, h.rules⟩

theorem MapsAfter.setConntrack {ok : Helpers} {ids : List MetricId} {ct : ConntrackMap}
    {a b : Maps} (h : MapsAfter ok ids ct a b) (ct' : ConntrackMap) :
    MapsAfter ok ids ct' a { b with conntrackMap := ct' } :=
  ⟨h.metrics, rfl, h.config, h.rules⟩

/-- What a delete leaves of the conntrack entries. -/
def deleteEntry (ok : Helpers) (key : ConntrackKey) (ct : ConntrackMap) : ConntrackMap :=
  if ok .ctDelete then ct.erase key else ct

theorem MapsAfter.conntrackDelete {ok : Helpers} {ids : List MetricId} {ct : ConntrackMap}
    {a b : Maps} (h : MapsAfter ok ids ct a b) (key : ConntrackKey) :
    MapsAfter ok ids (deleteEntry ok key ct) a (b.conntrackDelete ok key) := by
  unfold Maps.conntrackDelete deleteEntry
  split
  · rw [h.conntrack]
    exact h.setConntrack _
  · exact h

/-! ## Runs that reach the suffix lookup -/

/-- The packet passes every check in front of the label walk: bypass is off, it is a UDP packet to
`coredns_ip:dns_port` with a complete DNS header, QR = 0 and QDCOUNT = 1. -/
structure IsQuery (cfg : GatewayConfig) (skb : SkBuff) : Prop where
  bypass : cfg.bypass = 0
  udp : skb.IsUdp
  daddr : skb.daddr = cfg.corednsIp
  dport : skb.dport = cfg.dnsPort
  header : skb.dnsOffset + 12 ≤ skb.len
  qr : (byteAt skb.data (skb.dnsOffset + 2)).toNat < 128
  qdcount : byteAt skb.data (skb.dnsOffset + 4) = 0 ∧ byteAt skb.data (skb.dnsOffset + 5) = 1

-- The checks look at the headers only.
theorem IsQuery.congr {cfg : GatewayConfig} {skb skb' : SkBuff} (h : IsQuery cfg skb)
    (hlen : skb'.len = skb.len)
    (hsame : ∀ i, i < skb.dnsOffset + 12 → byteAt skb'.data i = byteAt skb.data i) :
    IsQuery cfg skb' ∧ skb'.dnsOffset = skb.dnsOffset := by
  have hlo := h.udp.ihl_ge
  have hoff : skb.dnsOffset = 14 + 4 * skb.ihl + 8 := rfl
  have hihl : skb'.ihl = skb.ihl := by rw [SkBuff.ihl, SkBuff.ihl, hsame 14 (by omega)]
  have hudp : skb'.udpOffset = skb.udpOffset := by rw [SkBuff.udpOffset, SkBuff.udpOffset, hihl]
  have hdns : skb'.dnsOffset = skb.dnsOffset := by rw [SkBuff.dnsOffset, SkBuff.dnsOffset, hudp]
  have hudpOff : skb.dnsOffset = skb.udpOffset + 8 := rfl
  have hdaddr : skb'.daddr = skb.daddr := by
    rw [SkBuff.daddr, SkBuff.daddr, u32At, u32At, hsame 30 (by omega), hsame 31 (by omega),
      hsame 32 (by omega), hsame 33 (by omega)]
  have hdport : skb'.dport = skb.dport := by
    rw [SkBuff.dport, SkBuff.dport, hudp, u16At, u16At, hsame _ (by omega), hsame _ (by omega)]
  refine ⟨⟨h.bypass, ⟨?_, ?_, ?_, ?_, ?_⟩, ?_, ?_, ?_, ?_, ?_⟩, hdns⟩
  · rw [hsame 12 (by omega), hsame 13 (by omega)]
    exact h.udp.etherType
  · rw [hsame 23 (by omega)]
    exact h.udp.protocol
  · rw [hihl]
    exact hlo
  · rw [hsame 20 (by omega), hsame 21 (by omega)]
    exact h.udp.unfragmented
  · rw [hudp, hlen]
    exact h.udp.present
  · rw [hdaddr]
    exact h.daddr
  · rw [hdport]
    exact h.dport
  · rw [hdns, hlen]
    exact h.header
  · rw [hdns, hsame _ (by omega)]
    exact h.qr
  · rw [hdns, hsame _ (by omega), hsame _ (by omega)]
    exact h.qdcount

/-- The helpers a run needs to get to the QNAME load. -/
structure HeaderHelpers (ok : Helpers) : Prop where
  config : ok .configLookup = true
  eth : ok .loadEth = true
  ip : ok .loadIp = true
  udp : ok .loadUdp = true
  dns : ok .loadDns = true
  scratch : ok .scratchLookup = true

/-- The run reaches the suffix lookup with the label walk ended in `w`. -/
structure Admitted (ok : Helpers) (skb : SkBuff) (m : Maps) (remaining : Nat)
    (scratch : ScratchBuf) (w : WalkState) : Prop where
  helpers : HeaderHelpers ok
  query : IsQuery m.configMap skb
  qname : loadQname ok skb (skb.dnsOffset + 12) m.scratchMap = some (remaining, scratch)
  walk : walkLabels scratch.qname remaining maxLabels {} = .done w
  labels : w.labelOffsets.length ≠ 0
  fits : w.pos + 1 ≤ maxDnsNameLen ∧ w.pos + 1 ≤ remaining

theorem flags_qr_iff (b2 b3 : UInt8) : be16 b2 b3 &&& 0x8000 ≠ 0 ↔ ¬ b2.toNat < 128 := by
  have h2 := b2.toNat_lt
  have h3 := b3.toNat_lt
  rw [ne_eq, ← UInt16.toNat_inj, UInt16.toNat_and, be16, u16OfLE, UInt16.toNat_ofNat',
    Nat.mod_eq_of_lt (by omega)]
  change ¬ (b3.toNat + 2 ^ 8 * b2.toNat) &&& (0 + 2 ^ 8 * 2 ^ 7) = 0 ↔ _
  rw [land_two_bytes _ _ h3 (by decide), Nat.and_zero, Nat.and_two_pow,
    Nat.testBit_eq_decide_div_mod_eq]
  by_cases hb : b2.toNat < 128
  · rw [show b2.toNat / 2 ^ 7 = 0 by omega]
    simpa using hb
  · rw [show b2.toNat / 2 ^ 7 = 1 by omega]
    simpa using hb

theorem qdcount_iff (b4 b5 : UInt8) : be16 b4 b5 ≠ 1 ↔ ¬ (b4 = 0 ∧ b5 = 1) := by
  have h4 := b4.toNat_lt
  have h5 := b5.toNat_lt
  rw [ne_eq, not_iff_not, ← UInt16.toNat_inj, ← UInt8.toNat_inj, ← UInt8.toNat_inj, be16, u16OfLE,
    UInt16.toNat_ofNat']
  change (b5.toNat + 2 ^ 8 * b4.toNat) % 2 ^ 16 = 1 ↔ b4.toNat = 0 ∧ b5.toNat = 1
  omega

/-! ## The stages in front of the suffix lookup -/

/-- The counts of the runs that return in front of the suffix lookup. -/
def earlyCounts : List (List MetricId) :=
  [[.totalPackets], [.totalPackets, .bypassActive], [.totalPackets, .dnsQueries],
    [.totalPackets, .dnsQueries, .parseError]]

-- `ingressQuery` on a parsed packet: an early return, or the suffix lookup.
theorem ingressQuery_cases {ok : Helpers} {now : UInt64} {cfg : GatewayConfig} {skb : SkBuff}
    {m : Maps} {o : Outcome} (ho : ingressQuery ok now cfg skb.ipHdr skb.udpHdr skb m = o) :
    (∃ (parseErr : Bool) (m' : Maps), o = pass skb m' ∧
      MapsAfter ok (if parseErr then [.parseError] else []) m.conntrackMap m m') ∨
    ∃ remaining scratch w,
      (ok .loadDns = true ∧ ok .scratchLookup = true ∧ skb.dnsOffset + 12 ≤ skb.len ∧
        (byteAt skb.data (skb.dnsOffset + 2)).toNat < 128 ∧
        (byteAt skb.data (skb.dnsOffset + 4) = 0 ∧ byteAt skb.data (skb.dnsOffset + 5) = 1)) ∧
      loadQname ok skb (skb.dnsOffset + 12) m.scratchMap = some (remaining, scratch) ∧
      walkLabels scratch.qname remaining maxLabels {} = .done w ∧
      w.labelOffsets.length ≠ 0 ∧ (w.pos + 1 ≤ maxDnsNameLen ∧ w.pos + 1 ≤ remaining) ∧
      o = ingressResolve ok now cfg skb.ipHdr skb.udpHdr skb.txid w.labelOffsets (w.pos + 1) skb
        { m with scratchMap := scratch } := by
  have silent : ∀ m', MapsAfter ok [] m.conntrackMap m m' → pass skb m' = o →
      ∃ (parseErr : Bool) (m' : Maps), o = pass skb m' ∧
        MapsAfter ok (if parseErr then [.parseError] else []) m.conntrackMap m m' :=
    fun m' hm he => ⟨false, m', he.symm, hm⟩
  have counted : ∀ m', MapsAfter ok [.parseError] m.conntrackMap m m' → pass skb m' = o →
      ∃ (parseErr : Bool) (m' : Maps), o = pass skb m' ∧
        MapsAfter ok (if parseErr then [.parseError] else []) m.conntrackMap m m' :=
    fun m' hm he => ⟨true, m', he.symm, hm⟩
  have hm := MapsAfter.refl ok m
  unfold ingressQuery at ho
  rw [SkBuff.ipHdr_udpOffset, show skb.udpOffset + 8 = skb.dnsOffset from rfl] at ho
  dsimp only at ho
  split at ho
  next => exact Or.inl (silent _ hm ho)
  next dnsHdr hload =>
    rcases skbLoadBytes_eq_some_iff.mp hload with ⟨hok, hin, rfl⟩
    have hb : ∀ i, i < 12 → byteAt (window skb.data skb.dnsOffset 12) i =
        byteAt skb.data (skb.dnsOffset + i) := fun i hi => byteAt_window _ _ _ _ hi
    rw [hb 0 (by decide), hb 1 (by decide), hb 2 (by decide), hb 3 (by decide),
      hb 4 (by decide), hb 5 (by decide)] at ho
    simp only [flags_qr_iff, qdcount_iff] at ho
    split at ho
    next => exact Or.inl (silent _ hm ho)
    next hqr =>
      split at ho
      next => exact Or.inl (counted _ (hm.incrementMetric .parseError) ho)
      next hqd =>
        split at ho
        next hscratch =>
          split at ho
          next => exact Or.inl (silent _ hm ho)
          next remaining scratch hq =>
            have hms := hm.setScratch scratch
            split at ho
            next => exact Or.inl (counted _ (hms.incrementMetric .parseError) ho)
            next w hw =>
              split at ho
              next => exact Or.inl (silent _ hms ho)
              next hlabels =>
                split at ho
                next => exact Or.inl (silent _ hms ho)
                next hfits =>
                  exact Or.inr ⟨remaining, scratch, w, ⟨hok, hscratch, hin, not_not.mp hqr,
                    not_not.mp hqd⟩, hq, hw, hlabels, by omega, ho.symm⟩
        next => exact Or.inl (silent _ hm ho)

/-- The shared maps as an admitted run finds them at the suffix lookup. -/
def Maps.atLookup (ok : Helpers) (m : Maps) (scratch : ScratchBuf) : Maps :=
  { (m.incrementMetric ok .totalPackets).incrementMetric ok .dnsQueries with
    scratchMap := scratch }

-- A run of `dns_gateway_ingress` returns early with one of the `earlyCounts`, or is admitted.
theorem ingress_cases {ok : Helpers} {now : UInt64} {skb : SkBuff} {m : Maps} {o : Outcome}
    (ho : dnsGatewayIngress ok now skb m = o) :
    (∃ ids ∈ earlyCounts, ∃ m', o = pass skb m' ∧ MapsAfter ok ids m.conntrackMap m m') ∨
    ∃ remaining scratch w, Admitted ok skb m remaining scratch w ∧
      o = ingressResolve ok now m.configMap skb.ipHdr skb.udpHdr skb.txid w.labelOffsets (w.pos + 1)
        skb (m.atLookup ok scratch) := by
  have hm := (MapsAfter.refl ok m).incrementMetric .totalPackets
  unfold dnsGatewayIngress at ho
  dsimp only at ho
  rw [configLookup_incrementMetric, Maps.configLookup] at ho
  split at ho
  next => exact Or.inl ⟨_, by decide, _, ho.symm, hm⟩
  next cfg hcfg =>
    split at hcfg
    next hok =>
      rcases Option.some.inj hcfg with rfl
      split at ho
      next => exact Or.inl ⟨_, by decide, _, ho.symm, hm.incrementMetric .bypassActive⟩
      next hbypass =>
        split at ho
        next => exact Or.inl ⟨_, by decide, _, ho.symm, hm⟩
        next iph udp hparse =>
          rcases parseUdp_eq_some_iff.mp hparse with ⟨⟨hok0, hok1, hok2⟩, hudp, rfl, rfl, hd, hp⟩
          rw [decide_eq_true_eq, SkBuff.ipHdr_daddr] at hd
          rw [decide_eq_true_eq, SkBuff.udpHdr_dest] at hp
          have hm2 := hm.incrementMetric .dnsQueries
          rcases ingressQuery_cases ho with ⟨parseErr, m', he, hm'⟩ |
            ⟨remaining, scratch, w, ⟨hdns, hscratch, hin, hqr, hqd⟩, hq, hw, hl, hf, he⟩
          · refine Or.inl ⟨[.totalPackets, .dnsQueries] ++ if parseErr then [.parseError] else [],
              ?_, m', he, ?_, ?_, hm'.config.trans hm2.config, hm'.rules.trans hm2.rules⟩
            · cases parseErr <;> decide
            · rw [hm'.metrics, hm2.metrics, ← bumpAll_append]
              rfl
            · rw [hm'.conntrack, hm2.conntrack]
          · rw [incrementMetric_scratchMap, incrementMetric_scratchMap] at hq
            exact Or.inr ⟨remaining, scratch, w, ⟨⟨hok, hok0, hok1, hok2, hdns, hscratch⟩,
              ⟨not_not.mp hbypass, hudp, hd, hp, hin, hqr, hqd⟩, hq, hw, hl, hf⟩, he⟩
    next => cases hcfg

-- An admitted run is its continuation from the suffix lookup on.
theorem ingress_of_admitted {ok : Helpers} {skb : SkBuff} {m : Maps} {remaining : Nat}
    {scratch : ScratchBuf} {w : WalkState} (now : UInt64)
    (h : Admitted ok skb m remaining scratch w) :
    dnsGatewayIngress ok now skb m =
      ingressResolve ok now m.configMap skb.ipHdr skb.udpHdr skb.txid w.labelOffsets (w.pos + 1)
        skb (m.atLookup ok scratch) := by
  have hparse : parseUdp ok skb (fun iph => iph.daddr = m.configMap.corednsIp)
      (fun udp => udp.dest = m.configMap.dnsPort) = some (skb.ipHdr, skb.udpHdr) := by
    refine parseUdp_eq_some_iff.mpr ⟨⟨h.helpers.eth, h.helpers.ip, h.helpers.udp⟩, h.query.udp,
      rfl, rfl, ?_, ?_⟩
    · rw [decide_eq_true_eq, SkBuff.ipHdr_daddr]
      exact h.query.daddr
    · rw [decide_eq_true_eq, SkBuff.udpHdr_dest]
      exact h.query.dport
  have hload : skbLoadBytes (ok .loadDns) skb skb.dnsOffset 12 =
      some (window skb.data skb.dnsOffset 12) :=
    skbLoadBytes_eq_some_iff.mpr ⟨h.helpers.dns, h.query.header, rfl⟩
  have hb : ∀ i, i < 12 → byteAt (window skb.data skb.dnsOffset 12) i =
      byteAt skb.data (skb.dnsOffset + i) := fun i hi => byteAt_window _ _ _ _ hi
  have hqr := h.query.qr
  have hqd := h.query.qdcount
  have hfits := h.fits
  have hq : ingressQuery ok now m.configMap skb.ipHdr skb.udpHdr skb
      ((m.incrementMetric ok .totalPackets).incrementMetric ok .dnsQueries) =
        ingressResolve ok now m.configMap skb.ipHdr skb.udpHdr skb.txid w.labelOffsets (w.pos + 1)
          skb (m.atLookup ok scratch) := by
    unfold ingressQuery
    rw [SkBuff.ipHdr_udpOffset, show skb.udpOffset + 8 = skb.dnsOffset from rfl]
    dsimp only
    rw [hload]
    dsimp only
    rw [hb 0 (by decide), hb 1 (by decide), hb 2 (by decide), hb 3 (by decide),
      hb 4 (by decide), hb 5 (by decide)]
    simp only [flags_qr_iff, qdcount_iff]
    rw [if_neg (not_not.mpr hqr), if_neg (not_not.mpr hqd), if_pos h.helpers.scratch]
    rw [incrementMetric_scratchMap, incrementMetric_scratchMap, h.qname]
    dsimp only
    rw [h.walk]
    dsimp only
    rw [if_neg h.labels, if_neg (by omega)]
    rfl
  unfold dnsGatewayIngress
  dsimp only
  rw [configLookup_incrementMetric, Maps.configLookup, if_pos h.helpers.config]
  dsimp only
  rw [if_neg (not_not.mpr h.query.bypass), hparse]
  exact hq

/-! ## How a run ends -/

/-- The conntrack key of a query. -/
def SkBuff.queryKey (skb : SkBuff) : ConntrackKey :=
  { podIp := skb.saddr, podPort := skb.sport, txid := skb.txid }

/-- The entry a redirect stores. -/
def redirectEntry (cfg : GatewayConfig) (now : UInt64) : ConntrackValue :=
  { corednsIp := cfg.corednsIp, timestampNs := now }

/-- The DNAT call of a run. -/
def ingressNat (ok : Helpers) (skb : SkBuff) (cfg : GatewayConfig) : Int × SkBuff :=
  natRewriteAddr ok skb 30 (skb.udpOffset + 6) skb.daddr cfg.hostResolverIp

/-- The rule hit of an admitted run. -/
def ruleHit (ok : Helpers) (m : Maps) (scratch : ScratchBuf) (w : WalkState) : Option UInt32 :=
  (matchSuffix ok m.suffixRules scratch.qname (w.pos + 1) w.labelOffsets maxLabels 0
    scratch.lookup).1

/-- The counts of an admitted run up to the action. -/
def lookupCounts (hit : Option UInt32) : List MetricId :=
  [.totalPackets, .dnsQueries, if hit.isSome then .suffixMatch else .suffixNoMatch]

/-- The action the run resolves the query to. -/
def resolvedTo (ok : Helpers) (m : Maps) (scratch : ScratchBuf) (w : WalkState) : UInt32 :=
  (ruleHit ok m scratch w).getD m.configMap.defaultAction

/-- The five ways a run of `dns_gateway_ingress` can end. -/
inductive IngressEnd (ok : Helpers) (now : UInt64) (skb : SkBuff) (m : Maps) (o : Outcome) : Prop
  | early (ids : List MetricId) (hids : ids ∈ earlyCounts)
      (hnot : ∀ remaining scratch w, ¬ Admitted ok skb m remaining scratch w)
      (hmaps : MapsAfter ok ids m.conntrackMap m o.maps)
      (hskb : o.skb = skb) (hins : o.inserted = none) (hnat : o.natRc = none)
  | cluster (remaining : Nat) (scratch : ScratchBuf) (w : WalkState)
      (hadm : Admitted ok skb m remaining scratch w)
      (haction : resolvedTo ok m scratch w ≠ actionHostResolve)
      (hmaps : MapsAfter ok (lookupCounts (ruleHit ok m scratch w) ++ [.clusterResolved])
        m.conntrackMap m o.maps)
      (hskb : o.skb = skb) (hins : o.inserted = none) (hnat : o.natRc = none)
  | insertFailed (remaining : Nat) (scratch : ScratchBuf) (w : WalkState)
      (hadm : Admitted ok skb m remaining scratch w)
      (haction : resolvedTo ok m scratch w = actionHostResolve)
      (hupdate : ok .ctUpdate = false)
      (hmaps : MapsAfter ok (lookupCounts (ruleHit ok m scratch w)) m.conntrackMap m o.maps)
      (hskb : o.skb = skb) (hins : o.inserted = some false) (hnat : o.natRc = none)
  | natFailed (remaining : Nat) (scratch : ScratchBuf) (w : WalkState)
      (hadm : Admitted ok skb m remaining scratch w)
      (haction : resolvedTo ok m scratch w = actionHostResolve)
      (hupdate : ok .ctUpdate = true) (hrc : (ingressNat ok skb m.configMap).1 < 0)
      (hmaps : MapsAfter ok (lookupCounts (ruleHit ok m scratch w) ++
          natFailureCounts (ingressNat ok skb m.configMap).1)
        (deleteEntry ok skb.queryKey
          (m.conntrackMap.insert skb.queryKey (redirectEntry m.configMap now))) m o.maps)
      (hskb : o.skb = (ingressNat ok skb m.configMap).2) (hins : o.inserted = some true)
      (hnat : o.natRc = some (ingressNat ok skb m.configMap).1)
  | redirected (remaining : Nat) (scratch : ScratchBuf) (w : WalkState)
      (hadm : Admitted ok skb m remaining scratch w)
      (haction : resolvedTo ok m scratch w = actionHostResolve)
      (hupdate : ok .ctUpdate = true) (hrc : (ingressNat ok skb m.configMap).1 = 0)
      (hmaps : MapsAfter ok (lookupCounts (ruleHit ok m scratch w) ++ [.redirected])
        (m.conntrackMap.insert skb.queryKey (redirectEntry m.configMap now)) m o.maps)
      (hskb : o.skb = (ingressNat ok skb m.configMap).2) (hins : o.inserted = some true)
      (hnat : o.natRc = some 0)

section UdpNat

variable {skb : SkBuff} (hudp : skb.IsUdp) {ok : Helpers} {addrOff : Nat} (haddr : addrOff ≤ 30)
  (oldAddr newAddr : UInt32)

include hudp haddr

-- The NAT calls of both programs keep their three fields apart.
theorem SkBuff.IsUdp.natSpec (hip : 26 ≤ addrOff) :
    NatSpec ok skb addrOff (skb.udpOffset + 6) oldAddr newAddr
      (natRewriteAddr ok skb addrOff (skb.udpOffset + 6) oldAddr newAddr) := by
  have hlo := hudp.ihl_ge
  have hoff : skb.udpOffset = 14 + 4 * skb.ihl := rfl
  exact natRewriteAddr_spec ok skb addrOff (skb.udpOffset + 6) oldAddr newAddr hip (by omega)

theorem SkBuff.IsUdp.nat_ok (hnew : ok .storeNew = true) (hl3 : ok .l3New = true)
    (hl4 : ok .l4New = true) :
    (natRewriteAddr ok skb addrOff (skb.udpOffset + 6) oldAddr newAddr).1 = 0 := by
  have hlo := hudp.ihl_ge
  have hhi := skb.ihl_lt
  have hin := hudp.present
  have hoff : skb.udpOffset = 14 + 4 * skb.ihl := rfl
  have heth : ethHlen = 14 := rfl
  exact natRewriteAddr_ok _ _ hnew hl3 hl4 (by omega) (by omega) (by omega) (by omega) (by omega)

end UdpNat

theorem ingressNat_spec (ok : Helpers) (skb : SkBuff) (cfg : GatewayConfig)
    (hudp : skb.IsUdp) : NatSpec ok skb 30 (skb.udpOffset + 6) skb.daddr cfg.hostResolverIp
      (ingressNat ok skb cfg) :=
  hudp.natSpec (by decide) skb.daddr cfg.hostResolverIp (by decide)

-- With every helper let through the DNAT succeeds.
theorem ingressNat_ok {ok : Helpers} {skb : SkBuff} (cfg : GatewayConfig) (hudp : skb.IsUdp)
    (hnew : ok .storeNew = true) (hl3 : ok .l3New = true) (hl4 : ok .l4New = true) :
    (ingressNat ok skb cfg).1 = 0 :=
  hudp.nat_ok (by decide) skb.daddr cfg.hostResolverIp hnew hl3 hl4

theorem ingressRedirect_end {ok : Helpers} {now : UInt64} {skb : SkBuff} {m m' : Maps}
    {remaining : Nat} {scratch : ScratchBuf} {w : WalkState}
    (hadm : Admitted ok skb m remaining scratch w)
    (haction : resolvedTo ok m scratch w = actionHostResolve)
    (hm : MapsAfter ok (lookupCounts (ruleHit ok m scratch w)) m.conntrackMap m m') :
    IngressEnd ok now skb m
      (ingressRedirect ok now m.configMap skb.ipHdr skb.udpHdr skb.txid skb m') := by
  have hspec := (ingressNat_spec ok skb m.configMap hadm.query.udp).rc
  unfold ingressRedirect
  dsimp only
  rw [SkBuff.ipHdr_saddr, SkBuff.udpHdr_source, SkBuff.ipHdr_udpOffset, SkBuff.ipHdr_daddr,
    show ethHlen + 16 = 30 from rfl, hm.conntrack,
    show natRewriteAddr ok skb 30 (skb.udpOffset + 6) skb.daddr m.configMap.hostResolverIp =
      ingressNat ok skb m.configMap from rfl]
  have hins := hm.setConntrack (m.conntrackMap.insert skb.queryKey (redirectEntry m.configMap now))
  cases hupdate : ok .ctUpdate with
  | false => exact .insertFailed remaining scratch w hadm haction hupdate hm rfl rfl rfl
  | true =>
      rw [if_pos rfl]
      split
      next hrc =>
        exact .natFailed remaining scratch w hadm haction hupdate hrc
          ((hins.countNatFailure _).conntrackDelete _) rfl rfl rfl
      next hrc =>
        change ¬ (ingressNat ok skb m.configMap).1 < 0 at hrc
        have hzero : (ingressNat ok skb m.configMap).1 = 0 := by omega
        exact .redirected remaining scratch w hadm haction hupdate hzero
          (hins.incrementMetric .redirected) rfl rfl (congrArg some hzero)

theorem ingressRedirect_verdict (ok : Helpers) (now : UInt64) (cfg : GatewayConfig) (iph : IpHdr)
    (udp : UdpHdr) (txid : UInt16) (skb : SkBuff) (m : Maps) :
    (ingressRedirect ok now cfg iph udp txid skb m).verdict = tcActOk := by
  unfold ingressRedirect
  dsimp only
  split
  · split <;> rfl
  · rfl

-- Every run of `dns_gateway_ingress` ends in one of the five ways, with `TC_ACT_OK`.
theorem ingress_end (ok : Helpers) (now : UInt64) (skb : SkBuff) (m : Maps) :
    (dnsGatewayIngress ok now skb m).verdict = tcActOk ∧
      IngressEnd ok now skb m (dnsGatewayIngress ok now skb m) := by
  by_cases hreach : ∃ remaining scratch w, Admitted ok skb m remaining scratch w
  · rcases hreach with ⟨remaining, scratch, w, hadm⟩
    rw [ingress_of_admitted now hadm]
    have hm : MapsAfter ok [.totalPackets, .dnsQueries] m.conntrackMap m (m.atLookup ok scratch) :=
      (((MapsAfter.refl ok m).incrementMetric .totalPackets).incrementMetric
        .dnsQueries).setScratch scratch
    unfold ingressResolve
    generalize hr : matchSuffix ok (m.atLookup ok scratch).suffixRules
      (m.atLookup ok scratch).scratchMap.qname (w.pos + 1) w.labelOffsets maxLabels 0
      (m.atLookup ok scratch).scratchMap.lookup = r
    rcases r with ⟨hit, lookup⟩
    have hhit : ruleHit ok m scratch w = hit := by
      rw [ruleHit, ← hm.rules]
      exact congrArg Prod.fst hr
    have hact : resolvedTo ok m scratch w = hit.getD m.configMap.defaultAction := by
      rw [resolvedTo, hhit]
    dsimp only
    have hm2 := (hm.setScratch { (m.atLookup ok scratch).scratchMap with
      lookup := lookup }).incrementMetric (if hit.isSome then .suffixMatch else .suffixNoMatch)
    have hcounts : [.totalPackets, .dnsQueries] ++
        [if hit.isSome then .suffixMatch else .suffixNoMatch] =
          lookupCounts (ruleHit ok m scratch w) := by
      rw [hhit]
      rfl
    rw [hcounts] at hm2
    rw [← hact]
    split
    next haction =>
      exact ⟨rfl, .cluster remaining scratch w hadm haction (hm2.incrementMetric .clusterResolved)
        rfl rfl rfl⟩
    next haction =>
      exact ⟨ingressRedirect_verdict .., ingressRedirect_end hadm (not_not.mp haction) hm2⟩
  · rcases ingress_cases (rfl : dnsGatewayIngress ok now skb m = _) with
      ⟨ids, hids, m', ho, hm⟩ | ⟨remaining, scratch, w, hadm, -⟩
    · rw [ho]
      exact ⟨rfl, .early ids hids (fun r s w h => hreach ⟨r, s, w, h⟩) hm rfl rfl rfl⟩
    · exact absurd ⟨remaining, scratch, w, hadm⟩ hreach

end DnsGateway.Bpf
