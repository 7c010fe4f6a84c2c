import DnsGateway.Reasoning.Interleave
import DnsGateway.Bpf.Programs
import DnsGateway.Ebpf.Maps

/-!
# The TC programs on several CPUs

The kernel runs the programs on all CPUs at once.  Here they are cut at their accesses to what the
CPUs share: the fields of `config_map[0]`, which a program reads through the pointer it looked up,
the rules, `conntrack_map` and the clock.  The packet and the scratch buffer belong to one run.
-/

namespace DnsGateway.Smp

open DnsGateway.Reasoning DnsGateway.Bpf

/-! ## The shared memory -/

theorem getElem?_mono {α : Type} {l l' : List α} (h : l <+: l') {p : Nat} {x : α}
    (hp : l[p]? = some x) : l'[p]? = some x := by
  obtain ⟨hlt, hx⟩ := List.getElem?_eq_some_iff.mp hp
  rw [List.prefix_iff_getElem?.mp h p hlt, hx]

/-- `conntrack_map` and its elements.  The place of an element in `elems` is the pointer to it.  An
element that is removed, or that an update has replaced, may be used for a later one while a program
still holds the pointer: `cell` is the element that is read through a pointer. -/
structure Conntrack where
  index : Finmap fun _ : ConntrackKey => Nat
  elems : List (ConntrackKey × ConntrackValue)
  cell : Nat → Nat
  index_ok : ∀ key p, index.lookup key = some p → ∃ val, elems[p]? = some (key, val) ∧ cell p = p
  cell_ge : ∀ p, p ≤ cell p
  cell_lt : ∀ p, p < elems.length → cell p < elems.length
  cell_new : ∀ p, elems.length ≤ p → cell p = p

def Conntrack.empty : Conntrack where
  index := ∅
  elems := []
  cell := id
  index_ok := by simp
  cell_ge := fun _ => le_rfl
  cell_lt := fun _ h => h
  cell_new := fun _ _ => rfl

def Conntrack.update (ct : Conntrack) (key : ConntrackKey) (val : ConntrackValue) : Conntrack where
  index := ct.index.insert key ct.elems.length
  elems := ct.elems ++ [(key, val)]
  cell := ct.cell
  index_ok := by
    intro key' p h
    by_cases hkey : key' = key
    · subst hkey
      obtain rfl : ct.elems.length = p := by simpa using h
      exact ⟨val, by simp, ct.cell_new _ le_rfl⟩
    · rw [Finmap.lookup_insert_of_ne _ hkey] at h
      obtain ⟨val', hval, hcell⟩ := ct.index_ok key' p h
      exact ⟨val', getElem?_mono (List.prefix_append _ _) hval, hcell⟩
  cell_ge := ct.cell_ge
  cell_lt := by
    intro p hp
    rw [List.length_append] at hp ⊢
    by_cases hlt : p < ct.elems.length
    · exact Nat.lt_add_right _ (ct.cell_lt p hlt)
    · rwa [ct.cell_new p (Nat.le_of_not_lt hlt)]
  cell_new := by
    intro p hp
    exact ct.cell_new p (le_trans (by simp) hp)

def Conntrack.delete (ct : Conntrack) (key : ConntrackKey) : Conntrack :=
  { ct with
    index := ct.index.erase key
    index_ok := by
      intro key' p h
      by_cases hkey : key' = key
      · subst hkey
        rw [Finmap.lookup_erase] at h
        exact absurd h (by simp)
      · rw [Finmap.lookup_erase_ne hkey] at h
        exact ct.index_ok key' p h }

/-- What is read through the pointer `p`. -/
def Conntrack.read (ct : Conntrack) (p : Nat) : ConntrackValue :=
  match ct.elems[ct.cell p]? with
  | some e => e.2
  | none => { corednsIp := 0, timestampNs := 0 }

/-- The memory of the element `p` is used for the later element `q`, if `p` is not in the map. -/
def Conntrack.recycle (ct : Conntrack) (p q : Nat) : Option Conntrack :=
  match hp : ct.elems[p]? with
  | some e =>
      if h : ct.index.lookup e.1 ≠ some p ∧ p < q ∧ q < ct.elems.length then
        some { ct with
          cell := Function.update ct.cell p q
          index_ok := by
            intro key p' hkey
            obtain ⟨val, hval, hcell⟩ := ct.index_ok key p' hkey
            -- the entry of a key is in the map, so it is not the element whose memory is reused
            have hne : p' ≠ p := by
              intro heq
              rw [heq] at hval hkey
              obtain rfl : e = (key, val) := by simpa [hp] using hval
              exact h.1 hkey
            exact ⟨val, hval, by rw [Function.update_of_ne hne, hcell]⟩
          cell_ge := by
            intro p'
            rw [Function.update_apply]
            split
            · omega
            · exact ct.cell_ge p'
          cell_lt := by
            intro p' hp'
            rw [Function.update_apply]
            split
            · exact h.2.2
            · exact ct.cell_lt p' hp'
          cell_new := by
            intro p' hp'
            rw [Function.update_of_ne (by omega), ct.cell_new p' hp'] }
      else none
  | none => none

structure Shared where
  suffixRules : SuffixRules
  config : GatewayConfig
  conntrack : Conntrack
  -- `metrics_map`, for each CPU.
  metrics : Nat → MetricId → Nat
  clock : UInt64

/-! ## Accesses -/

inductive Access where
  | metric (id : MetricId)
  | bypass
  | corednsIp
  | hostResolverIp
  | dnsPort
  | defaultAction
  | rule (key : SuffixKey)
  | ktime
  | ctUpdate (key : ConntrackKey) (val : ConntrackValue)
  | ctDelete (key : ConntrackKey)
  | ctLookup (key : ConntrackKey)
  -- `ct_val->timestamp_ns` and `ct_val->coredns_ip`, through the pointer of a lookup.
  | ctTimestamp (p : Nat)
  | ctCorednsIp (p : Nat)
  deriving DecidableEq

def Access.Answer : Access → Type
  | .metric _ | .ctUpdate _ _ | .ctDelete _ => Unit
  | .bypass | .dnsPort => UInt16
  | .corednsIp | .hostResolverIp | .defaultAction | .ctCorednsIp _ => UInt32
  | .rule _ => Option SuffixValue
  | .ktime | .ctTimestamp _ => UInt64
  | .ctLookup _ => Option Nat

/-- An access of CPU `cpu`. -/
def Shared.exec (cpu : Nat) : (o : Access) → Shared → o.Answer × Shared
  | .metric id, s =>
      ((), { s with
        metrics := Function.update s.metrics cpu
          (Function.update (s.metrics cpu) id (s.metrics cpu id + 1)) })
  | .bypass, s => (s.config.bypass, s)
  | .corednsIp, s => (s.config.corednsIp, s)
  | .hostResolverIp, s => (s.config.hostResolverIp, s)
  | .dnsPort, s => (s.config.dnsPort, s)
  | .defaultAction, s => (s.config.defaultAction, s)
  | .rule key, s => (s.suffixRules.lookup key, s)
  | .ktime, s => (s.clock, s)
  | .ctUpdate key val, s => ((), { s with conntrack := s.conntrack.update key val })
  | .ctDelete key, s => ((), { s with conntrack := s.conntrack.delete key })
  | .ctLookup key, s => (s.conntrack.index.lookup key, s)
  | .ctTimestamp p, s => ((s.conntrack.read p).timestampNs, s)
  | .ctCorednsIp p, s => ((s.conntrack.read p).corednsIp, s)

/-! ## The programs -/

abbrev Run := Prog Access Access.Answer

/-- What a run returns beside `TC_ACT_OK`. -/
structure Result where
  skb : SkBuff
  inserted : Option Bool := none
  natRc : Option Int := none

-- The accesses with their types.
abbrev countMetric (id : MetricId) : Run Unit := perform (Access.metric id)
abbrev cfgBypass : Run UInt16 := perform Access.bypass
abbrev cfgCorednsIp : Run UInt32 := perform Access.corednsIp
abbrev cfgHostResolverIp : Run UInt32 := perform Access.hostResolverIp
abbrev cfgDnsPort : Run UInt16 := perform Access.dnsPort
abbrev cfgDefaultAction : Run UInt32 := perform Access.defaultAction
abbrev findRule (key : SuffixKey) : Run (Option SuffixValue) := perform (Access.rule key)
abbrev ktimeGetNs : Run UInt64 := perform Access.ktime
abbrev updateEntry (key : ConntrackKey) (val : ConntrackValue) : Run Unit :=
  perform (Access.ctUpdate key val)
abbrev dropEntry (key : ConntrackKey) : Run Unit := perform (Access.ctDelete key)
abbrev findEntry (key : ConntrackKey) : Run (Option Nat) := perform (Access.ctLookup key)
abbrev entryTimestampNs (p : Nat) : Run UInt64 := perform (Access.ctTimestamp p)
abbrev entryCorednsIp (p : Nat) : Run UInt32 := perform (Access.ctCorednsIp p)

def incrementMetric (ok : Helpers) (id : MetricId) : Run Unit :=
  if ok (.metricLookup id) then countMetric id else pure ()

def countNatFailure (ok : Helpers) (rc : Int) : Run Unit := do
  incrementMetric ok .natError
  if rc = -2 then incrementMetric ok .natRevertFail else pure ()

def conntrackLookup (ok : Helpers) (key : ConntrackKey) : Run (Option Nat) :=
  if ok .ctLookup then findEntry key else pure none

def conntrackDelete (ok : Helpers) (key : ConntrackKey) : Run Unit :=
  if ok .ctDelete then dropEntry key else pure ()

/-- The header checks; `addrOk` and `portOk` read what the packet is compared with. -/
def parseUdp (ok : Helpers) (skb : SkBuff) (addrOk : IpHdr → Run Bool)
    (portOk : UdpHdr → Run Bool) : Run (Option (IpHdr × UdpHdr)) :=
  match skbLoadBytes (ok .loadEth) skb 0 14 with
  | none => pure none
  | some eth =>
    if u16At eth 12 ≠ htons ethPIp then pure none
    else
      match skbLoadBytes (ok .loadIp) skb ethHlen 20 with
      | none => pure none
      | some ip =>
        let iph := IpHdr.ofBytes ip
        if iph.protocol ≠ ipprotoUdp then pure none
        else do
          let isOurs ← addrOk iph
          if ¬ isOurs then pure none
          else if iph.ihl < 5 ∨ iph.ihl > 15 then pure none
          else if iph.fragOff &&& htons 0x3FFF ≠ 0 then pure none
          else
            match skbLoadBytes (ok .loadUdp) skb iph.udpOffset 8 with
            | none => pure none
            | some u =>
              let udp := UdpHdr.ofBytes u
              let isDns ← portOk udp
              if ¬ isDns then pure none else pure (some (iph, udp))

def ruleLookup (ok : Helpers) (i : Nat) (lookup : NameBuf) : Run (Option SuffixValue) :=
  if ok (.ruleLookup i) then findRule ⟨lookup⟩ else pure none

/-- The matching loop from index `i` on: the action of the first hit. -/
def matchSuffix (ok : Helpers) (qname : NameBuf) (qnameTotalLen : Nat) (labelOffsets : List Nat) :
    Nat → Nat → Run (Option UInt32)
  | 0, _ => pure none
  | fuel + 1, i =>
      if i ≥ labelOffsets.length then pure none
      else if i ≥ maxLabels then pure none
      else
        let suffixStart := labelOffsets.getD i 0
        let suffixLen := u32Sub qnameTotalLen suffixStart
        if suffixLen = 0 ∨ suffixLen > maxDnsNameLen then pure none
        else do
          let val ← ruleLookup ok i (copySuffix qname suffixStart suffixLen)
          match val with
          | some val => pure (some val.action)
          | none => matchSuffix ok qname qnameTotalLen labelOffsets fuel (i + 1)

def ingressRedirect (ok : Helpers) (iph : IpHdr) (udp : UdpHdr) (txid : UInt16) (skb : SkBuff) :
    Run Result := do
  let ctKey : ConntrackKey := { podIp := iph.saddr, podPort := udp.source, txid := txid }
  let corednsIp ← cfgCorednsIp
  let now ← ktimeGetNs
  if ok .ctUpdate then
    updateEntry ctKey { corednsIp := corednsIp, timestampNs := now }
    let hostResolverIp ← cfgHostResolverIp
    let nat := natRewriteAddr ok skb (ethHlen + 16) (iph.udpOffset + 6) iph.daddr hostResolverIp
    if nat.1 < 0 then
      countNatFailure ok nat.1
      conntrackDelete ok ctKey
      pure { skb := nat.2, inserted := some true, natRc := some nat.1 }
    else
      incrementMetric ok .redirected
      pure { skb := nat.2, inserted := some true, natRc := some nat.1 }
  else pure { skb := skb, inserted := some false }

def ingressResolve (ok : Helpers) (iph : IpHdr) (udp : UdpHdr) (txid : UInt16) (qname : NameBuf)
    (labelOffsets : List Nat) (qnameTotalLen : Nat) (skb : SkBuff) : Run Result := do
  let defaultAction ← cfgDefaultAction
  let hit ← matchSuffix ok qname qnameTotalLen labelOffsets maxLabels 0
  incrementMetric ok (if hit.isSome then .suffixMatch else .suffixNoMatch)
  if hit.getD defaultAction ≠ actionHostResolve then
    incrementMetric ok .clusterResolved
    pure { skb := skb }
  else ingressRedirect ok iph udp txid skb

def ingressQuery (ok : Helpers) (iph : IpHdr) (udp : UdpHdr) (scratch : ScratchBuf)
    (skb : SkBuff) : Run Result :=
  let dnsOffset := iph.udpOffset + 8
  match skbLoadBytes (ok .loadDns) skb dnsOffset 12 with
  | none => pure { skb := skb }
  | some dnsHdr =>
    let flags := be16 (byteAt dnsHdr 2) (byteAt dnsHdr 3)
    if flags &&& 0x8000 ≠ 0 then pure { skb := skb }
    else
      let qdcount := be16 (byteAt dnsHdr 4) (byteAt dnsHdr 5)
      if qdcount ≠ 1 then do
        incrementMetric ok .parseError
        pure { skb := skb }
      else
        let txid := be16 (byteAt dnsHdr 0) (byteAt dnsHdr 1)
        if ok .scratchLookup then
          match loadQname ok skb (dnsOffset + 12) scratch with
          | none => pure { skb := skb }
          | some (remaining, scratch) =>
            match walkLabels scratch.qname remaining maxLabels {} with
            | .badLength => do
                incrementMetric ok .parseError
                pure { skb := skb }
            | .done w =>
              if w.labelOffsets.length = 0 then pure { skb := skb }
              else
                let qnameTotalLen := w.pos + 1
                if qnameTotalLen > maxDnsNameLen ∨ qnameTotalLen > remaining then
                  pure { skb := skb }
                else
                  ingressResolve ok iph udp txid scratch.qname w.labelOffsets qnameTotalLen skb
        else pure { skb := skb }

/-- `dns_gateway_ingress` behind its bypass check. -/
def ingressHeaders (ok : Helpers) (scratch : ScratchBuf) (skb : SkBuff) : Run Result := do
  let headers ← parseUdp ok skb
    (fun iph => do return decide (iph.daddr = (← cfgCorednsIp)))
    (fun udp => do return decide (udp.dest = (← cfgDnsPort)))
  match headers with
  | none => pure { skb := skb }
  | some (iph, udp) =>
      incrementMetric ok .dnsQueries
      ingressQuery ok iph udp scratch skb

/-- `dns_gateway_ingress`, on a CPU whose scratch slot holds `scratch`. -/
def dnsGatewayIngress (ok : Helpers) (scratch : ScratchBuf) (skb : SkBuff) : Run Result := do
  incrementMetric ok .totalPackets
  if ok .configLookup then
    let bypass ← cfgBypass
    if bypass ≠ 0 then
      incrementMetric ok .bypassActive
      pure { skb := skb }
    else ingressHeaders ok scratch skb
  else pure { skb := skb }

def egressSnat (ok : Helpers) (iph : IpHdr) (udp : UdpHdr) (txid : UInt16) (skb : SkBuff) :
    Run Result := do
  let ctKey : ConntrackKey := { podIp := iph.daddr, podPort := udp.dest, txid := txid }
  let ctVal ← conntrackLookup ok ctKey
  match ctVal with
  | none =>
      incrementMetric ok .egressConntrackMiss
      pure { skb := skb }
  | some p =>
      let now ← ktimeGetNs
      let timestampNs ← entryTimestampNs p
      if now - timestampNs > conntrackTtlNs then
        conntrackDelete ok ctKey
        incrementMetric ok .egressConntrackMiss
        pure { skb := skb }
      else
        let corednsIp ← entryCorednsIp p
        let nat := natRewriteAddr ok skb (ethHlen + 12) (iph.udpOffset + 6) iph.saddr corednsIp
        if nat.1 < 0 then
          countNatFailure ok nat.1
          pure { skb := nat.2, natRc := some nat.1 }
        else
          conntrackDelete ok ctKey
          incrementMetric ok .egressSnat
          pure { skb := nat.2, natRc := some nat.1 }

/-- `dns_gateway_egress`. -/
def dnsGatewayEgress (ok : Helpers) (skb : SkBuff) : Run Result := do
  incrementMetric ok .egressTotal
  if ok .configLookup then
    let headers ← parseUdp ok skb
      (fun iph => do return decide (iph.saddr = (← cfgHostResolverIp)))
      (fun udp => do return decide (udp.source = (← cfgDnsPort)))
    match headers with
    | none => pure { skb := skb }
    | some (iph, udp) =>
        match skbLoadBytes (ok .loadDns) skb (iph.udpOffset + 8) 12 with
        | none => pure { skb := skb }
        | some dnsHdr =>
            egressSnat ok iph udp (be16 (byteAt dnsHdr 0) (byteAt dnsHdr 1)) skb
  else pure { skb := skb }

end DnsGateway.Smp
