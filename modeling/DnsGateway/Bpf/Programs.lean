import DnsGateway.Bpf.Headers

/-!
# The two TC programs (`bpf/dns_gateway.c`)

`dns_gateway_ingress` is cut at the points where its text is cut: the header checks, the DNS
header and QNAME load, the label walk, the suffix lookup and the redirect.
-/

namespace DnsGateway.Bpf

open DnsGateway.Reasoning

/-! ## What a run leaves behind -/

/-- The result of one program run.  `inserted` and `natRc` are the results of the conntrack insert
and of `nat_rewrite_addr` in the runs that reach these calls. -/
structure Outcome where
  verdict : Int
  skb : SkBuff
  maps : Maps
  inserted : Option Bool := none
  natRc : Option Int := none

/-- `return TC_ACT_OK` before any rewrite. -/
def pass (skb : SkBuff) (m : Maps) : Outcome where
  verdict := tcActOk
  skb := skb
  maps := m

/-- `increment_metric`. -/
def Maps.incrementMetric (ok : Helpers) (id : MetricId) (m : Maps) : Maps :=
  if ok (.metricLookup id) then
    { m with metricsMap := Function.update m.metricsMap id (m.metricsMap id + 1) }
  else m

/-- `count_nat_failure`. -/
def Maps.countNatFailure (ok : Helpers) (rc : Int) (m : Maps) : Maps :=
  let m := m.incrementMetric ok .natError
  if rc = -2 then m.incrementMetric ok .natRevertFail else m

/-- `bpf_map_lookup_elem(&config_map, &cfg_key)`. -/
def Maps.configLookup (ok : Helpers) (m : Maps) : Option GatewayConfig :=
  if ok .configLookup then some m.configMap else none

/-- `bpf_map_delete_elem(&conntrack_map, &ct_key)`; the programs ignore its result. -/
def Maps.conntrackDelete (ok : Helpers) (key : ConntrackKey) (m : Maps) : Maps :=
  if ok .ctDelete then { m with conntrackMap := m.conntrackMap.erase key } else m

/-! ## QNAME load -/

/-- The buffer after its first `bs.length` bytes were loaded. -/
def NameBuf.load (buf : NameBuf) (bs : List UInt8) : NameBuf :=
  ⟨(bs ++ buf.toList.drop bs.length).take maxDnsNameLen, by
    rw [List.length_take, List.length_append, List.length_drop, List.Vector.toList_length]
    omega⟩

def NameBuf.at (buf : NameBuf) (i : Nat) : UInt8 := byteAt buf.toList i

/-- The clamps on `remaining` (lines 198-207), for a packet with `n` bytes after the header. -/
def clampRemaining (n : Nat) : Nat :=
  let remaining := if n > maxDnsNameLen then maxDnsNameLen else n
  let remaining := remaining &&& (maxDnsNameLen - 1)
  if remaining = 0 then maxDnsNameLen else remaining

/-- Load the QNAME into the scratch buffer; `none` is an early return. -/
def loadQname (ok : Helpers) (skb : SkBuff) (qnameOffset : Nat) (scratch : ScratchBuf) :
    Option (Nat × ScratchBuf) :=
  if qnameOffset > skb.len then none
  else if skb.len - qnameOffset < 1 then none
  else
    let remaining := clampRemaining (skb.len - qnameOffset)
    match skbLoadBytes (ok .loadQname) skb qnameOffset remaining with
    | none => none
    | some bs => some (remaining, { scratch with qname := scratch.qname.load bs })

/-! ## Label walk -/

/-- The locals of the label walk.  `num_labels` is the length of `labelOffsets`. -/
structure WalkState where
  labelOffsets : List Nat := []
  pos : Nat := 0
  deriving DecidableEq, Repr

/-- How the label walk ends: in the parse-error return or behind the loop. -/
inductive WalkResult where
  | badLength
  | done (s : WalkState)
  deriving DecidableEq, Repr

/-- One pass through the loop body per unit of fuel, `MAX_LABELS` in all. -/
def walkLabels (qname : NameBuf) (remaining : Nat) : Nat → WalkState → WalkResult
  | 0, s => .done s
  | fuel + 1, s =>
      if s.pos ≥ remaining ∨ s.pos ≥ maxDnsNameLen then .done s
      else
        let readIdx := s.pos &&& (maxDnsNameLen - 1)
        let labelLen := (NameBuf.at qname readIdx).toNat
        if labelLen = 0 then .done s
        else if labelLen > 63 then .badLength
        else walkLabels qname remaining fuel
          { labelOffsets := s.labelOffsets ++ [s.pos], pos := s.pos + (1 + labelLen) }

/-! ## Suffix lookup -/

/-- Subtraction on `__u32`. -/
def u32Sub (a b : Nat) : Nat := (a + 2 ^ 32 - b) % 2 ^ 32

/-- The unrolled copy loop: the suffix bytes, then zeros, over the whole lookup buffer. -/
def copySuffix (qname : NameBuf) (suffixStart suffixLen : Nat) : NameBuf :=
  let ss := suffixStart &&& (maxDnsNameLen - 1)
  let sl := if suffixLen > maxDnsNameLen then maxDnsNameLen else suffixLen
  ⟨(List.range maxDnsNameLen).map fun k =>
    if k < sl then NameBuf.at qname ((ss + k) &&& (maxDnsNameLen - 1)) else 0, by
    rw [List.length_map, List.length_range]⟩

/-- `bpf_map_lookup_elem(&suffix_rules, key)` in the pass with index `i`. -/
def ruleLookup (ok : Helpers) (rules : SuffixRules) (i : Nat) (lookup : NameBuf) :
    Option SuffixValue :=
  if ok (.ruleLookup i) then rules.lookup ⟨lookup⟩ else none

/-- The matching loop from index `i` on: the action of the first hit, and the lookup buffer. -/
def matchSuffix (ok : Helpers) (rules : SuffixRules) (qname : NameBuf) (qnameTotalLen : Nat)
    (labelOffsets : List Nat) : Nat → Nat → NameBuf → Option UInt32 × NameBuf
  | 0, _, lookup => (none, lookup)
  | fuel + 1, i, lookup =>
      if i ≥ labelOffsets.length then (none, lookup)
      else if i ≥ maxLabels then (none, lookup)
      else
        let suffixStart := labelOffsets.getD i 0
        let suffixLen := u32Sub qnameTotalLen suffixStart
        if suffixLen = 0 ∨ suffixLen > maxDnsNameLen then (none, lookup)
        else
          let lookup := copySuffix qname suffixStart suffixLen
          match ruleLookup ok rules i lookup with
          | some val => (some val.action, lookup)
          | none => matchSuffix ok rules qname qnameTotalLen labelOffsets fuel (i + 1) lookup

/-! ## Ingress -/

/-- Conntrack insert and DNAT (lines 332-366). -/
def ingressRedirect (ok : Helpers) (now : UInt64) (cfg : GatewayConfig) (iph : IpHdr)
    (udp : UdpHdr) (txid : UInt16) (skb : SkBuff) (m : Maps) : Outcome :=
  let ctKey : ConntrackKey := { podIp := iph.saddr, podPort := udp.source, txid := txid }
  let ctVal : ConntrackValue := { corednsIp := cfg.corednsIp, timestampNs := now }
  if ok .ctUpdate then
    let m := { m with conntrackMap := m.conntrackMap.insert ctKey ctVal }
    let (rc, skb') := natRewriteAddr ok skb (ethHlen + 16) (iph.udpOffset + 6) iph.daddr
      cfg.hostResolverIp
    if rc < 0 then
      { verdict := tcActOk, skb := skb', inserted := some true, natRc := some rc
        maps := (m.countNatFailure ok rc).conntrackDelete ok ctKey }
    else
      { verdict := tcActOk, skb := skb', inserted := some true, natRc := some rc
        maps := m.incrementMetric ok .redirected }
  else { verdict := tcActOk, skb := skb, maps := m, inserted := some false }

/-- Suffix matching and action resolution (lines 257-330). -/
def ingressResolve (ok : Helpers) (now : UInt64) (cfg : GatewayConfig) (iph : IpHdr)
    (udp : UdpHdr) (txid : UInt16) (labelOffsets : List Nat) (qnameTotalLen : Nat)
    (skb : SkBuff) (m : Maps) : Outcome :=
  let (hit, lookup) := matchSuffix ok m.suffixRules m.scratchMap.qname qnameTotalLen
    labelOffsets maxLabels 0 m.scratchMap.lookup
  let m := { m with scratchMap := { m.scratchMap with lookup := lookup } }
  let action := hit.getD cfg.defaultAction
  let m := m.incrementMetric ok (if hit.isSome then .suffixMatch else .suffixNoMatch)
  if action ≠ actionHostResolve then pass skb (m.incrementMetric ok .clusterResolved)
  else ingressRedirect ok now cfg iph udp txid skb m

/-- DNS header, QNAME load and label walk (lines 163-244). -/
def ingressQuery (ok : Helpers) (now : UInt64) (cfg : GatewayConfig) (iph : IpHdr)
    (udp : UdpHdr) (skb : SkBuff) (m : Maps) : Outcome :=
  let dnsOffset := iph.udpOffset + 8
  match skbLoadBytes (ok .loadDns) skb dnsOffset 12 with
  | none => pass skb m
  | some dnsHdr =>
    let flags := be16 (byteAt dnsHdr 2) (byteAt dnsHdr 3)
    if flags &&& 0x8000 ≠ 0 then pass skb m
    else
      let qdcount := be16 (byteAt dnsHdr 4) (byteAt dnsHdr 5)
      if qdcount ≠ 1 then pass skb (m.incrementMetric ok .parseError)
      else
        let txid := be16 (byteAt dnsHdr 0) (byteAt dnsHdr 1)
        if ok .scratchLookup then
          match loadQname ok skb (dnsOffset + 12) m.scratchMap with
          | none => pass skb m
          | some (remaining, scratch) =>
            let m := { m with scratchMap := scratch }
            match walkLabels scratch.qname remaining maxLabels {} with
            | .badLength => pass skb (m.incrementMetric ok .parseError)
            | .done w =>
              if w.labelOffsets.length = 0 then pass skb m
              else
                let qnameTotalLen := w.pos + 1
                if qnameTotalLen > maxDnsNameLen ∨ qnameTotalLen > remaining then pass skb m
                else ingressResolve ok now cfg iph udp txid w.labelOffsets qnameTotalLen skb m
        else pass skb m

/-- `dns_gateway_ingress`, run at time `now`. -/
def dnsGatewayIngress (ok : Helpers) (now : UInt64) (skb : SkBuff) (m : Maps) : Outcome :=
  let m := m.incrementMetric ok .totalPackets
  match m.configLookup ok with
  | none => pass skb m
  | some cfg =>
    if cfg.bypass ≠ 0 then pass skb (m.incrementMetric ok .bypassActive)
    else
      match parseUdp ok skb (fun iph => iph.daddr = cfg.corednsIp)
          (fun udp => udp.dest = cfg.dnsPort) with
      | none => pass skb m
      | some (iph, udp) =>
        ingressQuery ok now cfg iph udp skb (m.incrementMetric ok .dnsQueries)

/-! ## Egress -/

/-- Conntrack lookup, TTL check and SNAT (lines 426-466). -/
def egressSnat (ok : Helpers) (now : UInt64) (iph : IpHdr) (udp : UdpHdr) (txid : UInt16)
    (skb : SkBuff) (m : Maps) : Outcome :=
  let ctKey : ConntrackKey := { podIp := iph.daddr, podPort := udp.dest, txid := txid }
  match (if ok .ctLookup then m.conntrackMap.lookup ctKey else none) with
  | none => pass skb (m.incrementMetric ok .egressConntrackMiss)
  | some ctVal =>
    if now - ctVal.timestampNs > conntrackTtlNs then
      pass skb ((m.conntrackDelete ok ctKey).incrementMetric ok .egressConntrackMiss)
    else
      let (rc, skb') := natRewriteAddr ok skb (ethHlen + 12) (iph.udpOffset + 6) iph.saddr
        ctVal.corednsIp
      if rc < 0 then
        { verdict := tcActOk, skb := skb', natRc := some rc, maps := m.countNatFailure ok rc }
      else
        { verdict := tcActOk, skb := skb', natRc := some rc
          maps := (m.conntrackDelete ok ctKey).incrementMetric ok .egressSnat }

/-- `dns_gateway_egress`, run at time `now`.  It does not look at `bypass`. -/
def dnsGatewayEgress (ok : Helpers) (now : UInt64) (skb : SkBuff) (m : Maps) : Outcome :=
  let m := m.incrementMetric ok .egressTotal
  match m.configLookup ok with
  | none => pass skb m
  | some cfg =>
    match parseUdp ok skb (fun iph => iph.saddr = cfg.hostResolverIp)
        (fun udp => udp.source = cfg.dnsPort) with
    | none => pass skb m
    | some (iph, udp) =>
      match skbLoadBytes (ok .loadDns) skb (iph.udpOffset + 8) 12 with
      | none => pass skb m
      | some dnsHdr =>
        egressSnat ok now iph udp (be16 (byteAt dnsHdr 0) (byteAt dnsHdr 1)) skb m

end DnsGateway.Bpf
