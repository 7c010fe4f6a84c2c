import DnsGateway.Bpf.Ingress

/-!
# What one egress run can do
-/

namespace DnsGateway.Bpf

open DnsGateway.Reasoning

/-- The packet passes every check in front of the conntrack lookup: a UDP packet from
`host_resolver_ip:dns_port` with a complete DNS header. -/
structure IsResponse (cfg : GatewayConfig) (skb : SkBuff) : Prop where
  udp : skb.IsUdp
  saddr : skb.saddr = cfg.hostResolverIp
  sport : skb.sport = cfg.dnsPort
  header : skb.dnsOffset + 12 ≤ skb.len

/-- The helpers a run needs to get to the conntrack lookup. -/
structure ResponseHelpers (ok : Helpers) : Prop where
  config : ok .configLookup = true
  eth : ok .loadEth = true
  ip : ok .loadIp = true
  udp : ok .loadUdp = true
  dns : ok .loadDns = true

/-- The conntrack key of a response. -/
def SkBuff.responseKey (skb : SkBuff) : ConntrackKey :=
  { podIp := skb.daddr, podPort := skb.dport, txid := skb.txid }

/-- The SNAT call of a run that found the entry `v`. -/
def egressNat (ok : Helpers) (skb : SkBuff) (v : ConntrackValue) : Int × SkBuff :=
  natRewriteAddr ok skb 26 (skb.udpOffset + 6) skb.saddr v.corednsIp

theorem egressNat_spec (ok : Helpers) (skb : SkBuff) (v : ConntrackValue) (hudp : skb.IsUdp) :
    NatSpec ok skb 26 (skb.udpOffset + 6) skb.saddr v.corednsIp (egressNat ok skb v) :=
  hudp.natSpec (by decide) skb.saddr v.corednsIp (by decide)

-- With every helper let through the SNAT succeeds.
theorem egressNat_ok {ok : Helpers} {skb : SkBuff} (v : ConntrackValue) (hudp : skb.IsUdp)
    (hnew : ok .storeNew = true) (hl3 : ok .l3New = true) (hl4 : ok .l4New = true) :
    (egressNat ok skb v).1 = 0 :=
  hudp.nat_ok (by decide) skb.saddr v.corednsIp hnew hl3 hl4

/-- The five ways a run of `dns_gateway_egress` can end. -/
inductive EgressEnd (ok : Helpers) (now : UInt64) (skb : SkBuff) (m : Maps) (o : Outcome) : Prop
  | early (hnot : ¬ (ResponseHelpers ok ∧ IsResponse m.configMap skb))
      (hmaps : MapsAfter ok [.egressTotal] m.conntrackMap m o.maps)
      (hskb : o.skb = skb) (hnat : o.natRc = none)
  | miss (hresp : IsResponse m.configMap skb)
      (hmiss : ok .ctLookup = true → m.conntrackMap.lookup skb.responseKey = none)
      (hmaps : MapsAfter ok [.egressTotal, .egressConntrackMiss] m.conntrackMap m o.maps)
      (hskb : o.skb = skb) (hnat : o.natRc = none)
  | stale (v : ConntrackValue) (hresp : IsResponse m.configMap skb)
      (hlookup : m.conntrackMap.lookup skb.responseKey = some v)
      (hold : now - v.timestampNs > conntrackTtlNs)
      (hmaps : MapsAfter ok [.egressTotal, .egressConntrackMiss]
        (deleteEntry ok skb.responseKey m.conntrackMap) m o.maps)
      (hskb : o.skb = skb) (hnat : o.natRc = none)
  | natFailed (v : ConntrackValue) (hresp : IsResponse m.configMap skb)
      (hlookup : m.conntrackMap.lookup skb.responseKey = some v)
      (hfresh : ¬ now - v.timestampNs > conntrackTtlNs) (hrc : (egressNat ok skb v).1 < 0)
      (hmaps : MapsAfter ok ([.egressTotal] ++ natFailureCounts (egressNat ok skb v).1)
        m.conntrackMap m o.maps)
      (hskb : o.skb = (egressNat ok skb v).2) (hnat : o.natRc = some (egressNat ok skb v).1)
  | rewritten (v : ConntrackValue) (hresp : IsResponse m.configMap skb)
      (hlookup : m.conntrackMap.lookup skb.responseKey = some v)
      (hfresh : ¬ now - v.timestampNs > conntrackTtlNs) (hrc : (egressNat ok skb v).1 = 0)
      (hmaps : MapsAfter ok [.egressTotal, .egressSnat]
        (deleteEntry ok skb.responseKey m.conntrackMap) m o.maps)
      (hskb : o.skb = (egressNat ok skb v).2) (hnat : o.natRc = some 0)

theorem egressSnat_end {ok : Helpers} {now : UInt64} {skb : SkBuff} {m m' : Maps}
    (hresp : IsResponse m.configMap skb)
    (hm : MapsAfter ok [.egressTotal] m.conntrackMap m m') :
    EgressEnd ok now skb m (egressSnat ok now skb.ipHdr skb.udpHdr skb.txid skb m') := by
  unfold egressSnat
  dsimp only
  rw [SkBuff.ipHdr_daddr, SkBuff.udpHdr_dest, SkBuff.ipHdr_udpOffset, SkBuff.ipHdr_saddr,
    show ethHlen + 12 = 26 from rfl, hm.conntrack,
    show ConntrackKey.mk skb.daddr skb.dport skb.txid = skb.responseKey from rfl]
  split
  next hnone =>
    refine .miss hresp (fun hok => ?_) (hm.incrementMetric .egressConntrackMiss) rfl rfl
    rwa [if_pos hok] at hnone
  next v hsome =>
    have hlookup : m.conntrackMap.lookup skb.responseKey = some v := by
      split at hsome
      · exact hsome
      · cases hsome
    split
    next hold =>
      exact .stale v hresp hlookup hold
        ((hm.conntrackDelete skb.responseKey).incrementMetric .egressConntrackMiss) rfl rfl
    next hfresh =>
      have hspec := (egressNat_spec ok skb v hresp.udp).rc
      split
      next hrc => exact .natFailed v hresp hlookup hfresh hrc (hm.countNatFailure _) rfl rfl
      next hrc =>
        change ¬ (egressNat ok skb v).1 < 0 at hrc
        have hzero : (egressNat ok skb v).1 = 0 := by omega
        exact .rewritten v hresp hlookup hfresh hzero
          ((hm.conntrackDelete skb.responseKey).incrementMetric .egressSnat) rfl
          (congrArg some hzero)

theorem egressSnat_verdict (ok : Helpers) (now : UInt64) (iph : IpHdr) (udp : UdpHdr)
    (txid : UInt16) (skb : SkBuff) (m : Maps) :
    (egressSnat ok now iph udp txid skb m).verdict = tcActOk ∧
      (egressSnat ok now iph udp txid skb m).inserted = none := by
  unfold egressSnat
  dsimp only
  split
  · exact ⟨rfl, rfl⟩
  · split
    · exact ⟨rfl, rfl⟩
    · split <;> exact ⟨rfl, rfl⟩

-- Every run of `dns_gateway_egress` ends in one of the five ways, with `TC_ACT_OK`.
theorem egress_end (ok : Helpers) (now : UInt64) (skb : SkBuff) (m : Maps) :
    (dnsGatewayEgress ok now skb m).verdict = tcActOk ∧
      EgressEnd ok now skb m (dnsGatewayEgress ok now skb m) := by
  have hm := (MapsAfter.refl ok m).incrementMetric .egressTotal
  unfold dnsGatewayEgress
  dsimp only
  rw [configLookup_incrementMetric, Maps.configLookup]
  cases hcfg : ok .configLookup with
  | false =>
      exact ⟨rfl, .early (fun h => by simp [h.1.config] at hcfg) hm rfl rfl⟩
  | true =>
      rw [if_pos rfl]
      dsimp only
      split
      next hnone =>
        refine ⟨rfl, .early (fun h => ?_) hm rfl rfl⟩
        have hsome : parseUdp ok skb (fun iph => iph.saddr = m.configMap.hostResolverIp)
            (fun udp => udp.source = m.configMap.dnsPort) = some (skb.ipHdr, skb.udpHdr) :=
          parseUdp_eq_some_iff.mpr ⟨⟨h.1.eth, h.1.ip, h.1.udp⟩, h.2.udp, rfl, rfl,
            decide_eq_true (skb.ipHdr_saddr.trans h.2.saddr),
            decide_eq_true (skb.udpHdr_source.trans h.2.sport)⟩
        rw [hsome] at hnone
        cases hnone
      next iph udp hparse =>
        rcases parseUdp_eq_some_iff.mp hparse with ⟨-, hudp, rfl, rfl, hs, hp⟩
        rw [decide_eq_true_eq, SkBuff.ipHdr_saddr] at hs
        rw [decide_eq_true_eq, SkBuff.udpHdr_source] at hp
        rw [SkBuff.ipHdr_udpOffset, show skb.udpOffset + 8 = skb.dnsOffset from rfl]
        split
        next hnone =>
          refine ⟨rfl, .early (fun h => ?_) hm rfl rfl⟩
          rw [skbLoadBytes_eq_some_iff.mpr ⟨h.1.dns, h.2.header, rfl⟩] at hnone
          cases hnone
        next dnsHdr hload =>
          rcases skbLoadBytes_eq_some_iff.mp hload with ⟨-, hin, rfl⟩
          rw [byteAt_window _ _ _ _ (by decide), byteAt_window _ _ _ _ (by decide)]
          exact ⟨(egressSnat_verdict ..).1, egressSnat_end ⟨hudp, hs, hp, hin⟩ hm⟩

/-! ## When a response is rewritten -/

-- Only a response from the resolver is ever changed.
theorem egress_changes_response {ok : Helpers} {now : UInt64} {skb : SkBuff} {m : Maps}
    (h : (dnsGatewayEgress ok now skb m).skb ≠ skb ∨
      (dnsGatewayEgress ok now skb m).natRc = some 0) : IsResponse m.configMap skb := by
  cases (egress_end ok now skb m).2 with
  | early _ _ hskb hnat =>
      rw [hskb, hnat] at h
      simp at h
  | miss hresp => exact hresp
  | stale _ hresp => exact hresp
  | natFailed _ hresp => exact hresp
  | rewritten _ hresp => exact hresp

/-- The helpers a run needs to rewrite a response. -/
structure AnswerHelpers (ok : Helpers) : Prop extends ResponseHelpers ok where
  lookup : ok .ctLookup = true
  store : ok .storeNew = true
  l3 : ok .l3New = true
  l4 : ok .l4New = true

theorem answerHelpers_allOk : AnswerHelpers .allOk :=
  ⟨⟨rfl, rfl, rfl, rfl, rfl⟩, rfl, rfl, rfl, rfl⟩

-- A response is rewritten from a live entry of its key, and left alone without one.
theorem egress_answers {ok : Helpers} (now : UInt64) {skb : SkBuff} {m : Maps}
    (hok : AnswerHelpers ok) (hresp : IsResponse m.configMap skb) :
    (∀ v, m.conntrackMap.lookup skb.responseKey = some v →
      now - v.timestampNs ≤ conntrackTtlNs →
        (dnsGatewayEgress ok now skb m).natRc = some 0 ∧
        (dnsGatewayEgress ok now skb m).skb.saddr = v.corednsIp) ∧
    ((∀ v, m.conntrackMap.lookup skb.responseKey = some v →
      ¬ now - v.timestampNs ≤ conntrackTtlNs) →
        (dnsGatewayEgress ok now skb m).natRc = none ∧
        (dnsGatewayEgress ok now skb m).skb = skb) := by
  cases (egress_end ok now skb m).2 with
  | early hnot => exact absurd ⟨hok.toResponseHelpers, hresp⟩ hnot
  | miss _ hmiss _ hskb hnat =>
      constructor
      · intro v hv
        rw [hmiss hok.lookup] at hv
        cases hv
      · exact fun _ => ⟨hnat, hskb⟩
  | stale v _ hlookup hold _ hskb hnat =>
      constructor
      · intro v' hv hfresh
        rw [hlookup] at hv
        cases hv
        exact absurd hfresh (UInt64.not_le.mpr hold)
      · exact fun _ => ⟨hnat, hskb⟩
  | natFailed v _ _ _ hrc =>
      rw [egressNat_ok v hresp.udp hok.store hok.l3 hok.l4] at hrc
      omega
  | rewritten v _ hlookup hfresh hrc _ hskb hnat =>
      constructor
      · intro v' hv _
        rw [hlookup] at hv
        cases hv
        rw [hskb]
        exact ⟨hnat, (egressNat_spec ok skb v hresp.udp).rewritten hrc⟩
      · exact fun h => absurd (UInt64.not_lt.mp hfresh) (h v hlookup)

end DnsGateway.Bpf
