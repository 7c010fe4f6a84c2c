import DnsGateway.Bpf.Query
import DnsGateway.Bpf.Egress

/-!
# What a run may change in the packet

Both programs fail open: whatever the packet, the maps and the helpers are, a run returns
`TC_ACT_OK` and touches two checksums and one address at most.
-/

namespace DnsGateway.Bpf

open DnsGateway.Reasoning

/-- The frame of a run that may rewrite the address at `addrOff`; `otherOff` is the other one. -/
structure FailOpen (addrOff otherOff : Nat) (skb : SkBuff) (o : Outcome) : Prop where
  verdict : o.verdict = tcActOk
  len : o.skb.len = skb.len
  -- Only the IP checksum, the address and the UDP checksum differ.
  bytes : ∀ i, ¬ (Field 24 2 i ∨ Field addrOff 4 i ∨ Field (skb.udpOffset + 6) 2 i) →
    o.skb.data[i]? = skb.data[i]?
  otherAddr : window o.skb.data otherOff 4 = window skb.data otherOff 4
  ports : window o.skb.data skb.udpOffset 4 = window skb.data skb.udpOffset 4
  payload : o.skb.data.drop skb.dnsOffset = skb.data.drop skb.dnsOffset

theorem FailOpen.unchanged {addrOff otherOff : Nat} {skb : SkBuff} {o : Outcome}
    (hverdict : o.verdict = tcActOk) (hskb : o.skb = skb) : FailOpen addrOff otherOff skb o := by
  constructor
  · exact hverdict
  all_goals rw [hskb]
  exact fun _ _ => rfl

-- The UDP header starts behind both addresses, so the three fields lie apart from the rest.
theorem FailOpen.rewritten {addrOff otherOff : Nat} {skb : SkBuff} {o : Outcome}
    (hverdict : o.verdict = tcActOk) (hudp : skb.IsUdp)
    (hoff : (addrOff = 30 ∧ otherOff = 26) ∨ (addrOff = 26 ∧ otherOff = 30))
    (hframe : SameOutside (NatField addrOff (skb.udpOffset + 6)) skb o.skb) :
    FailOpen addrOff otherOff skb o := by
  have hlo := hudp.ihl_ge
  have hudpOff : skb.udpOffset = 14 + 4 * skb.ihl := rfl
  have hdnsOff : skb.dnsOffset = skb.udpOffset + 8 := rfl
  have hsame : ∀ i, ¬ (Field 24 2 i ∨ Field addrOff 4 i ∨ Field (skb.udpOffset + 6) 2 i) →
      o.skb.data[i]? = skb.data[i]? := hframe.same
  have hwindow : ∀ off, (∀ i, off ≤ i → i < off + 4 →
      ¬ (Field 24 2 i ∨ Field addrOff 4 i ∨ Field (skb.udpOffset + 6) 2 i)) →
      window o.skb.data off 4 = window skb.data off 4 := by
    intro off hout
    apply window_congr
    intro i hi hj
    exact hsame i (hout i hi hj)
  constructor
  · exact hverdict
  · exact hframe.len
  · exact hsame
  · apply hwindow
    intro i hi hj
    unfold Field
    omega
  · apply hwindow
    intro i hi hj
    unfold Field
    omega
  · apply List.ext_getElem?
    intro i
    rw [List.getElem?_drop, List.getElem?_drop]
    apply hsame
    unfold Field
    omega

theorem ingress_failOpen (ok : Helpers) (now : UInt64) (skb : SkBuff) (m : Maps) :
    FailOpen 30 26 skb (dnsGatewayIngress ok now skb m) := by
  have hend := ingress_end ok now skb m
  have hnat : ∀ {remaining : Nat} {scratch : ScratchBuf} {w : WalkState},
      Admitted ok skb m remaining scratch w →
      (dnsGatewayIngress ok now skb m).skb = (ingressNat ok skb m.configMap).2 →
      FailOpen 30 26 skb (dnsGatewayIngress ok now skb m) := by
    intro remaining scratch w hadm hskb
    have hudp := hadm.query.udp
    apply FailOpen.rewritten hend.1 hudp (Or.inl ⟨rfl, rfl⟩)
    rw [hskb]
    exact (ingressNat_spec ok skb m.configMap hudp).frame
  cases hend.2 with
  | early _ _ _ _ hskb _ _ => exact FailOpen.unchanged hend.1 hskb
  | cluster _ _ _ _ _ _ hskb _ _ => exact FailOpen.unchanged hend.1 hskb
  | insertFailed _ _ _ _ _ _ _ hskb _ _ => exact FailOpen.unchanged hend.1 hskb
  | natFailed _ _ _ hadm _ _ _ _ hskb _ _ => exact hnat hadm hskb
  | redirected _ _ _ hadm _ _ _ _ hskb _ _ => exact hnat hadm hskb

theorem egress_failOpen (ok : Helpers) (now : UInt64) (skb : SkBuff) (m : Maps) :
    FailOpen 26 30 skb (dnsGatewayEgress ok now skb m) := by
  have hend := egress_end ok now skb m
  have hnat : ∀ v, IsResponse m.configMap skb →
      (dnsGatewayEgress ok now skb m).skb = (egressNat ok skb v).2 →
      FailOpen 26 30 skb (dnsGatewayEgress ok now skb m) := by
    intro v hresp hskb
    apply FailOpen.rewritten hend.1 hresp.udp (Or.inr ⟨rfl, rfl⟩)
    rw [hskb]
    exact (egressNat_spec ok skb v hresp.udp).frame
  cases hend.2 with
  | early _ _ hskb _ => exact FailOpen.unchanged hend.1 hskb
  | miss _ _ _ hskb _ => exact FailOpen.unchanged hend.1 hskb
  | stale _ _ _ _ _ hskb _ => exact FailOpen.unchanged hend.1 hskb
  | natFailed v hresp _ _ _ _ hskb _ => exact hnat v hresp hskb
  | rewritten v hresp _ _ _ _ hskb _ => exact hnat v hresp hskb

-- A changed destination is the host resolver's, and the way back is tracked.
theorem ingress_tracks {ok : Helpers} {now : UInt64} {skb : SkBuff} {m : Maps}
    (hstore : ok .storeOld = true)
    (hchanged : (dnsGatewayIngress ok now skb m).skb.daddr ≠ skb.daddr) :
    (dnsGatewayIngress ok now skb m).skb.daddr = m.configMap.hostResolverIp ∧
      (dnsGatewayIngress ok now skb m).maps.conntrackMap.lookup skb.queryKey =
        some { corednsIp := skb.daddr, timestampNs := now } := by
  cases (ingress_end ok now skb m).2 with
  | early _ _ _ _ hskb _ _ => exact absurd (congrArg SkBuff.daddr hskb) hchanged
  | cluster _ _ _ _ _ _ hskb _ _ => exact absurd (congrArg SkBuff.daddr hskb) hchanged
  | insertFailed _ _ _ _ _ _ _ hskb _ _ => exact absurd (congrArg SkBuff.daddr hskb) hchanged
  | natFailed _ _ _ hadm _ _ hrc _ hskb _ _ =>
      -- The old address is written back.
      have hspec := ingressNat_spec ok skb m.configMap hadm.query.udp
      have hback := hspec.restored (by omega) hstore rfl
      rw [hskb] at hchanged
      exact absurd hback hchanged
  | redirected _ _ _ hadm _ _ hrc hmaps hskb _ _ =>
      have hspec := ingressNat_spec ok skb m.configMap hadm.query.udp
      rw [hskb, hmaps.conntrack, Finmap.lookup_insert, hadm.query.daddr]
      exact ⟨hspec.rewritten hrc, rfl⟩

/-- For every packet, every content of the maps and every combination of helper results, both
programs return `TC_ACT_OK` and keep to their frame; and unless the old address could not be stored
back, an ingress run that changes the destination has redirected the packet to the host resolver
and holds the conntrack entry that leads back. -/
theorem programs_failOpen (ok : Helpers) (now : UInt64) (skb : SkBuff) (m : Maps) :
    FailOpen 30 26 skb (dnsGatewayIngress ok now skb m) ∧
    FailOpen 26 30 skb (dnsGatewayEgress ok now skb m) ∧
    (ok .storeOld = true →
      (dnsGatewayIngress ok now skb m).skb.daddr ≠ skb.daddr →
      (dnsGatewayIngress ok now skb m).skb.daddr = m.configMap.hostResolverIp ∧
      (dnsGatewayIngress ok now skb m).maps.conntrackMap.lookup
        { podIp := skb.saddr, podPort := skb.sport, txid := skb.txid } =
          some { corednsIp := skb.daddr, timestampNs := now }) := by
  refine ⟨ingress_failOpen ok now skb m, egress_failOpen ok now skb m, ?_⟩
  intro hstore hchanged
  exact ingress_tracks hstore hchanged

end DnsGateway.Bpf
