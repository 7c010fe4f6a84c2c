import DnsGateway.Bpf.Rewrite
import DnsGateway.System.World

/-!
# Undoing the conntrack insert

When the rewrite fails, `dns_gateway_ingress` deletes the entry it has just inserted.  The insert
may have replaced an entry, and the delete does not bring that one back.
-/

namespace DnsGateway

open Reasoning Bpf Ebpf

-- All that a run with a failed rewrite does to the table is to delete.
theorem natFailure_erases {ok : Helpers} {now : UInt64} {skb : SkBuff} {m : Maps} {rc : Int}
    (hdelete : ok .ctDelete = true) (hrc : (dnsGatewayIngress ok now skb m).natRc = some rc)
    (hneg : rc < 0) :
    (dnsGatewayIngress ok now skb m).maps.conntrackMap = m.conntrackMap.erase skb.queryKey := by
  have hfailed : queryEvents skb now (dnsGatewayIngress ok now skb m) =
      [.natFailed skb.queryKey] := by
    rw [queryEvents, hrc]
    exact if_neg (by omega)
  have hcases := @ingress_conntrack ok now skb m hdelete
  simp only [hfailed] at hcases
  simpa using hcases

/-- A failed rewrite leaves `conntrack_map` as it was if and only if it held no entry for the key of
the query; otherwise the entry of the earlier query is gone. -/
theorem natFailure_restores_iff (ok : Helpers) (now : UInt64) (skb : SkBuff) (m : Maps) (rc : Int)
    (hdelete : ok .ctDelete = true) (hrc : (dnsGatewayIngress ok now skb m).natRc = some rc)
    (hneg : rc < 0) :
    (dnsGatewayIngress ok now skb m).maps.conntrackMap = m.conntrackMap ↔
      m.conntrackMap.lookup { podIp := skb.saddr, podPort := skb.sport, txid := skb.txid } =
        none := by
  rw [natFailure_erases hdelete hrc hneg]
  exact erase_eq_self_iff

-- With the update of the UDP checksum failing, a query that resolves to host-resolve gets to the
-- rewrite and no further.
theorem ingress_noL4 (now : UInt64) {skb : SkBuff} {m : Maps} {ls : List (List UInt8)} {b : UInt8}
    (hw : Walkable skb ls b) (hq : IsQuery m.configMap skb)
    (hres : resolve m ls b = actionHostResolve) :
    (dnsGatewayIngress .noL4 now skb m).natRc = some (-1) := by
  have hlen := hq.udp.present
  have hihl := hq.udp.ihl_ge
  have hoff : skb.udpOffset = 14 + 4 * skb.ihl := rfl
  have hnat : (ingressNat .noL4 skb m.configMap).1 = -1 := by
    obtain ⟨skb1, skb2, skb3, skb4, -, -, -, -, hr⟩ := natRewriteAddr_reverted
      (UdpReverted.noL4 skb (skb.udpOffset + 6)) skb.daddr m.configMap.hostResolverIp
      (show 30 + 4 ≤ skb.len by omega)
      (show ethHlen + 12 ≤ skb.len by change 26 ≤ skb.len; omega)
    rw [ingressNat, hr]
  have hresolved : ∀ {remaining scratch w}, Admitted .noL4 skb m remaining scratch w →
      resolvedTo .noL4 m scratch w = actionHostResolve := by
    intro remaining scratch w hadm
    obtain ⟨ms, c, hw', -, hto⟩ := hadm.walkable
    obtain ⟨rfl, rfl⟩ := hw.unique hw'
    rw [(hto fun i => decide_eq_true (by intro h; cases h)).1, hres]
  cases (ingress_end .noL4 now skb m).2 with
  | early _ _ hnot =>
      obtain ⟨remaining, scratch, hadm⟩ := hw.admitted
        (show HeaderHelpers .noL4 from ⟨rfl, rfl, rfl, rfl, rfl, rfl⟩) rfl hq
      exact absurd hadm (hnot _ _ _)
  | cluster _ _ _ hadm haction => exact absurd (hresolved hadm) haction
  | insertFailed _ _ _ _ _ hupdate => cases hupdate
  | natFailed _ _ _ _ _ _ _ _ _ _ hsome => rw [hsome, hnat]
  | redirected _ _ _ _ _ _ hrc => rw [hnat] at hrc; cases hrc

theorem shortQuery_noL4 (now : UInt64) {m : Maps}
    (hconfig : m.configMap = sampleConfig actionHostResolve) (hrules : m.suffixRules = .empty) :
    (dnsGatewayIngress .noL4 now shortQuery m).natRc = some (-1) := by
  apply ingress_noL4 now shortQuery_walkable
  · rw [hconfig]
    exact sampleQuery_isQuery _ _ _
  · rw [resolve_noRules hrules, hconfig]
    rfl

/-- Nothing is left of a first query whose rewrite fails. -/
theorem firstQuery_rolledBack :
    (sampleWorld.ingress .noL4 shortQuery).maps.conntrackMap = sampleWorld.maps.conntrackMap :=
  (natFailure_restores_iff .noL4 0 shortQuery sampleWorld.maps (-1) (by decide)
    (shortQuery_noL4 0 rfl rfl) (by decide)).mpr rfl

/-- A query is redirected and tracked; the rewrite of its retransmission fails; the entry of the
first query is gone, and the response reaches the pod from the host resolver's address. -/
theorem retransmission_drops_entry :
    let w := sampleWorld.run [.ingress .allOk shortQuery]
    let o := w.ingress .noL4 shortQuery
    w.maps.conntrackMap.lookup shortQuery.queryKey =
        some { corednsIp := u32OfLE 10 96 0 10, timestampNs := 0 } ∧
      o.natRc = some (-1) ∧ o.maps.conntrackMap.lookup shortQuery.queryKey = none ∧
      (dnsGatewayEgress .allOk 1 shortResponse o.maps).skb = shortResponse := by
  intro w o
  have hfirst := shortQuery_redirected 0 (m := sampleWorld.maps) rfl rfl
  have hsettings := ingress_settings .allOk 0 shortQuery sampleWorld.maps
  have hct : w.maps.conntrackMap.lookup shortQuery.queryKey =
      some { corednsIp := u32OfLE 10 96 0 10, timestampNs := 0 } := by
    show (sampleWorld.ingress .allOk shortQuery).maps.conntrackMap.lookup _ = _
    rw [World.ingress, show sampleWorld.clock = 0 from rfl, hfirst.conntrack,
      Finmap.lookup_insert]
    rfl
  have hrc : o.natRc = some (-1) :=
    shortQuery_noL4 0 (m := w.maps) hsettings.1 hsettings.2
  have hgone : o.maps.conntrackMap.lookup shortQuery.queryKey = none := by
    rw [show o.maps.conntrackMap = w.maps.conntrackMap.erase shortQuery.queryKey from
      natFailure_erases (by decide) hrc (by decide)]
    exact Finmap.lookup_erase _ _
  refine ⟨hct, hrc, hgone, ?_⟩
  have hresp : IsResponse o.maps.configMap shortResponse := by
    have hcfg := (ingress_settings .noL4 0 shortQuery w.maps).1.trans hsettings.1
    rw [show o.maps.configMap = sampleConfig actionHostResolve from hcfg]
    exact shortResponse_isResponse actionHostResolve
  refine ((egress_answers 1 answerHelpers_allOk hresp).2 ?_).2
  intro v hv
  rw [shortResponse_key, hgone] at hv
  cases hv

end DnsGateway
