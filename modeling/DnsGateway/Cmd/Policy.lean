import DnsGateway.Bpf.Frame
import DnsGateway.System.Tracking
import DnsGateway.Cmd.Startup

/-!
# From the file to the packets

A configuration file asks for an action on every name.  Whatever the pinned maps held before, and
whichever operations on them the kernel let through, once `run` has started up the two programs do
with a query and its response what the file asks for.
-/

namespace DnsGateway.Cmd

open DnsGateway.Reasoning DnsGateway.Bpf DnsGateway.Dnsenc DnsGateway.Ebpf

/-! ## What the file asks for -/

/-- The action of the longest rule whose suffix ends the name, or the default. -/
def fileAction (c : DnsGateway.Config) (name : List (List UInt8)) : GoString :=
  (longestMatch (c.rules.map fun r => (suffixLabels r.pattern, r.action)) name).getD c.defaultAction

/-- A DNS query for the name `ls`, over UDP to port 53 of `dst`. -/
structure Asks (dst : NetIP) (ls : List (List UInt8)) (skb : SkBuff) : Prop where
  udp : skb.IsUdp
  daddr : window skb.data 30 4 = dst
  dport : window skb.data (skb.udpOffset + 2) 2 = [0, 53]
  header : skb.dnsOffset + 12 ≤ skb.len
  qr : (byteAt skb.data (skb.dnsOffset + 2)).toNat < 128
  qdcount : byteAt skb.data (skb.dnsOffset + 4) = 0 ∧ byteAt skb.data (skb.dnsOffset + 5) = 1
  question : ∃ rest, skb.question = wireName ls ++ rest
  labels : LabelsOk ls
  count : 1 ≤ ls.length ∧ ls.length ≤ 10
  size : (wireName ls).length ≤ 128

/-- A DNS message over UDP from port 53 of `src` to the sender of the query, with its id. -/
structure Responds (src : NetIP) (query skb : SkBuff) : Prop where
  udp : skb.IsUdp
  saddr : window skb.data 26 4 = src
  sport : window skb.data skb.udpOffset 2 = [0, 53]
  header : skb.dnsOffset + 12 ≤ skb.len
  key : skb.responseKey = query.queryKey

/-- The query goes to `host`, and a response from there that comes next, within 5 s, leaves from
`coredns`. -/
structure ViaHost (coredns host : NetIP) (sent : UInt64) (skb : SkBuff) (m : Maps) : Prop where
  query : window (dnsGatewayIngress .allOk sent skb m).skb.data 30 4 = host
  response : ∀ (received : UInt64) (skb' : SkBuff), sent ≤ received →
    received.toNat ≤ sent.toNat + 5 * 10 ^ 9 → Responds host skb skb' →
    window (dnsGatewayEgress .allOk received skb'
      (dnsGatewayIngress .allOk sent skb m).maps).skb.data 26 4 = coredns

/-! ## Addresses -/

theorem to4_length {ip v4 : NetIP} (h : to4 ip = some v4) : v4.length = 4 := by
  unfold to4 at h
  split at h
  · cases h
    assumption
  · split at h
    · rename_i hlen
      cases h
      rw [List.length_drop, hlen.1]
    · cases h

-- A word of the packet and four bytes that read the same are the same bytes.
theorem window_eq_iff_nativeUint32IP {bs : List UInt8} {off : Nat} {ip : NetIP}
    (hin : off + 4 ≤ bs.length) (hip : ip.length = 4) :
    window bs off 4 = ip ↔ u32At bs off = nativeUint32IP ip := by
  have hself : window ip 0 4 = ip := by
    rw [window, List.drop_zero, ← hip, List.take_length]
  constructor
  · intro h
    rw [nativeUint32IP, ← h, u32At_window _ _ _ _ (by decide)]
    rfl
  · intro h
    rw [window_eq_u32ToLE hin, h, nativeUint32IP, ← window_eq_u32ToLE (by omega), hself]

theorem dnsPort53_of_window {bs : List UInt8} {off : Nat} (h : window bs off 2 = [0, 53]) :
    u16At bs off = dnsPort53 := by
  rw [← Nat.add_zero off, ← u16At_window bs off 2 0 (by decide), h]
  rfl

/-! ## What start-up leaves -/

theorem toBPFAction_eq_host {a : GoString} :
    toBPFAction a = actionHostResolve ↔ a = Config.actionHostResolve := by
  unfold toBPFAction
  split
  · simp [*]
  · simp only [*, iff_false]
    decide

theorem populateConfig_inv {updateOk : Bool} {cfg : Ebpf.Config} {m m' : GatewayConfig}
    (haction : cfg.defaultAction ≠ 0) (h : populateConfig updateOk cfg m = (none, m')) :
    ∃ c4 h4, to4 cfg.corednsIP = some c4 ∧ to4 cfg.hostResolverIP = some h4 ∧
      m' = { corednsIp := nativeUint32IP c4, hostResolverIp := nativeUint32IP h4,
             dnsPort := dnsPort53, bypass := if cfg.bypass then 1 else 0,
             defaultAction := cfg.defaultAction } := by
  unfold populateConfig at h
  split at h
  · cases h
  · rename_i c4 hc4
    split at h
    · cases h
    · rename_i h4 hh4
      dsimp only at h
      rw [if_neg haction] at h
      split at h
      · cases h
      · split at h
        · cases h
          exact ⟨c4, h4, hc4, hh4, rfl⟩
        · cases h

section Started

variable {lib : Config.Library} {unicodeToLower : GoString → GoString} {updateOk : Bool}
  {ops : MapOps} {orders : Orders} {c : DnsGateway.Config} {m : GatewayConfig} {t : SuffixRules}
  {s : Started}

theorem startUp_inv (h : startUp lib unicodeToLower updateOk ops orders c m t = .ok s) :
    populateConfig updateOk (bpfConfig lib c.applyDefaults) m = (none, s.config) ∧
    (populateSuffixRules unicodeToLower ops orders (c.rules.map bpfRule) t).err = none ∧
    s.rules = (populateSuffixRules unicodeToLower ops orders (c.rules.map bpfRule) t).final t := by
  rw [startUp, bind_eq_ok] at h
  rcases h with ⟨c', hc', h⟩
  rw [mapError_eq_ok, Config.parse_eq_ok] at hc'
  rw [hc'.2] at h
  split at h
  · cases h
  · rename_i m' hm'
    dsimp only at h
    split at h
    · cases h
    · rename_i herr
      rw [bind_eq_ok] at h
      rcases h with ⟨checker, -, h⟩
      cases h
      exact ⟨hm', herr, rfl⟩

-- The file's meaning, as the numbers of the maps.
theorem resolvedAction_file (c : DnsGateway.Config) (ls : List (List UInt8)) :
    resolvedAction ((c.rules.map bpfRule).map fun r => (suffixLabels r.pattern, r.action))
      (toBPFAction c.defaultAction) ls = toBPFAction (fileAction c ls) := by
  have htable : ((c.rules.map bpfRule).map fun r => (suffixLabels r.pattern, r.action)) =
      (c.rules.map fun r => (suffixLabels r.pattern, r.action)).map
        fun r => (r.1, toBPFAction r.2) := by
    rw [List.map_map, List.map_map]
    rfl
  rw [resolvedAction, htable, longestMatch_mapValue, fileAction]
  exact Option.getD_map toBPFAction _ _

end Started

/-! ## The packets -/

section Packets

variable {cfg : GatewayConfig} {coredns host : NetIP} {skb : SkBuff} {ls : List (List UInt8)}

-- The address fields of a UDP packet lie in front of its end.
theorem addr_in_udp (h : skb.IsUdp) : 26 + 4 ≤ skb.data.length ∧ 30 + 4 ≤ skb.data.length := by
  have hihl := h.ihl_ge
  have hlen : 14 + 4 * skb.ihl + 8 ≤ skb.data.length := h.present
  omega

theorem Asks.isQuery (h : Asks coredns ls skb) (hlen : coredns.length = 4)
    (hbypass : cfg.bypass = 0) (haddr : cfg.corednsIp = nativeUint32IP coredns)
    (hport : cfg.dnsPort = dnsPort53) : IsQuery cfg skb := by
  refine ⟨hbypass, h.udp, ?_, ?_, h.header, h.qr, h.qdcount⟩
  · rw [haddr]
    exact (window_eq_iff_nativeUint32IP (addr_in_udp h.udp).2 hlen).mp h.daddr
  · rw [hport]
    exact dnsPort53_of_window h.dport

theorem Responds.isResponse {query : SkBuff} (h : Responds host query skb) (hlen : host.length = 4)
    (haddr : cfg.hostResolverIp = nativeUint32IP host) (hport : cfg.dnsPort = dnsPort53) :
    IsResponse cfg skb := by
  refine ⟨h.udp, ?_, ?_, h.header⟩
  · rw [haddr]
    exact (window_eq_iff_nativeUint32IP (addr_in_udp h.udp).1 hlen).mp h.saddr
  · rw [hport]
    exact dnsPort53_of_window h.sport

-- A redirected query and its response, in bytes.
theorem Redirected.viaHost {sent : UInt64} {m : Maps}
    (h : Redirected sent skb m (dnsGatewayIngress .allOk sent skb m)) (hudp : skb.IsUdp)
    (hclen : coredns.length = 4) (hhlen : host.length = 4)
    (hcoredns : m.configMap.corednsIp = nativeUint32IP coredns)
    (hhost : m.configMap.hostResolverIp = nativeUint32IP host)
    (hport : m.configMap.dnsPort = dnsPort53) : ViaHost coredns host sent skb m := by
  constructor
  · have hlen := (ingress_failOpen .allOk sent skb m).len
    rw [window_eq_iff_nativeUint32IP (by rw [← SkBuff.len, hlen]; exact (addr_in_udp hudp).2) hhlen,
      ← hhost]
    exact h.daddr
  · intro received skb' hafter hintime hresponds
    have hcfg := (ingress_settings .allOk sent skb m).1
    have hresponse : IsResponse (dnsGatewayIngress .allOk sent skb m).maps.configMap skb' := by
      rw [hcfg]
      exact hresponds.isResponse hhlen hhost hport
    have hentry : (dnsGatewayIngress .allOk sent skb m).maps.conntrackMap.lookup skb'.responseKey =
        some (redirectEntry m.configMap sent) := by
      rw [h.conntrack, hresponds.key, Finmap.lookup_insert]
    have hanswer := (egress_answers received answerHelpers_allOk hresponse).1 _ hentry
      ((elapsed_le_ttl_iff hafter).mpr hintime)
    have hlen := (egress_failOpen .allOk received skb'
      (dnsGatewayIngress .allOk sent skb m).maps).len
    rw [window_eq_iff_nativeUint32IP
      (by rw [← SkBuff.len, hlen]; exact (addr_in_udp hresponds.udp).1) hclen, ← hcoredns]
    exact hanswer.2

end Packets

theorem parseIP_to4 {lib : Config.Library} {text : GoString} {v4 : NetIP}
    (h : to4 ((lib.parseIP text).getD []) = some v4) :
    (lib.parseIP text).bind to4 = some v4 := by
  cases hparse : lib.parseIP text with
  | none =>
      rw [hparse] at h
      cases h
  | some ip =>
      rw [hparse] at h
      exact h

/-- Once `run` has started up from the file `c`, over any earlier content of the two maps, a query
to the file's CoreDNS for which the file says host-resolve goes to the file's host resolver and its
response comes back from CoreDNS; any other query passes as it is. -/
theorem started_follows_file {lib : Config.Library} {unicodeToLower : GoString → GoString}
    {updateOk : Bool} {ops : MapOps} {orders : Orders} {c : DnsGateway.Config} {m : GatewayConfig}
    {t : SuffixRules} {s : Started}
    (hstart : startUp lib unicodeToLower updateOk ops orders c m t = .ok s)
    (hascii : ∀ r ∈ c.rules, ∀ b ∈ r.pattern, b < 0x80) :
    ∃ coredns host, (lib.parseIP c.corednsServiceIP).bind to4 = some coredns ∧
      (lib.parseIP c.hostResolverIP).bind to4 = some host ∧
      ∀ (maps : Maps) (sent : UInt64) (skb : SkBuff) (ls : List (List UInt8)),
        maps.configMap = s.config → maps.suffixRules = s.rules → Asks coredns ls skb →
        (fileAction c.applyDefaults ls = Config.actionHostResolve →
          ViaHost coredns host sent skb maps) ∧
        (fileAction c.applyDefaults ls ≠ Config.actionHostResolve →
          Untouched skb maps (dnsGatewayIngress .allOk sent skb maps)) := by
  rcases startUp_inv hstart with ⟨hpopulate, herr, hrules⟩
  have hdefault : toBPFAction c.applyDefaults.defaultAction ≠ 0 := by
    rcases toBPFAction_valid c.applyDefaults.defaultAction with h | h
    · rw [h]
      decide
    · rw [h]
      decide
  rcases populateConfig_inv hdefault hpopulate with ⟨coredns, host, hcoredns, hhost, hconfig⟩
  have hclen := to4_length hcoredns
  have hhlen := to4_length hhost
  refine ⟨coredns, host, parseIP_to4 hcoredns, parseIP_to4 hhost, ?_⟩
  intro maps sent skb ls hmaps hsuffix hasks
  rcases hasks.question with ⟨rest, hbytes⟩
  have hinst := installed_of_populate herr
  have hcfg := hmaps.trans hconfig
  have hquery : IsQuery maps.configMap skb := by
    rw [hcfg]
    exact hasks.isQuery hclen rfl rfl rfl
  have hout := ingress_outcomes hinst (hsuffix.trans hrules) sent
    (walkable_of_question hasks.labels hasks.count hasks.size hbytes) hquery
  have hascii' : ∀ r ∈ c.rules.map bpfRule, ∀ b ∈ r.pattern, b < 0x80 :=
    List.forall_mem_map.mpr hascii
  have haction : maps.configMap.defaultAction = toBPFAction c.applyDefaults.defaultAction := by
    rw [hcfg]
    rfl
  have hmeaning : resolvedAction ((c.rules.map bpfRule).map fun r =>
      (suffixLabels r.pattern, r.action)) (toBPFAction c.applyDefaults.defaultAction) ls =
      toBPFAction (fileAction c.applyDefaults ls) := resolvedAction_file c.applyDefaults ls
  rw [ruleTable_ascii hinst.1 hascii', haction, hmeaning, ne_eq, toBPFAction_eq_host] at hout
  constructor
  · intro hfile
    apply Redirected.viaHost (hout.1.mpr hfile) hasks.udp hclen hhlen
    · rw [hcfg]
    · rw [hcfg]
    · rw [hcfg]
  · exact hout.2.mpr

theorem sampleQuery_asks {ls : List (List UInt8)} (h : (wireName ls).length ≤ 128)
    (hlabels : LabelsOk ls) (hcount : 1 ≤ ls.length ∧ ls.length ≤ 10) :
    Asks [10, 96, 0, 10] ls (sampleQuery (wireName ls) (Nat.le_trans h (by decide))) := by
  have hq := sampleQuery_isQuery 0 (wireName ls) (Nat.le_trans h (by decide))
  refine ⟨hq.udp, rfl, ?_, hq.header, hq.qr, hq.qdcount, ⟨_, sampleQuery_question _ _⟩, hlabels,
    hcount, h⟩
  rw [sampleQuery_udpOffset]
  rfl

/-- The file with the one rule `*.corp: host-resolve`, started up over a bypass that was left set
and a rule `*.corp: cluster-resolve` of an earlier file: `a.corp` goes to the host resolver. -/
theorem corpFile_followed :
    ∃ s, startUp sampleLibrary (List.map asciiToLower) true .reliable ⟨default, default, default⟩
        (sampleFile [corpEntry Config.actionHostResolve]) { sampleConfig 0 with bypass := 1 }
        (corpTable actionClusterResolve) = .ok s ∧
      ∀ maps : Maps, maps.configMap = s.config → maps.suffixRules = s.rules →
        ViaHost [10, 96, 0, 10] [10, 0, 0, 2] 0
          (sampleQuery (wireName [[97], [99, 111, 114, 112]]) (by decide)) maps := by
  have hascii : ∀ r ∈ [corpEntry Config.actionHostResolve], ∀ b ∈ r.pattern, b < 0x80 :=
    List.forall_mem_singleton.mpr (corpEntry_ascii _)
  have haccepted := Config.validate_eq_ok.mp (sampleFile_valid
    (List.forall_mem_singleton.mpr (corpEntry_accepted
      (show Config.validAction Config.actionHostResolve by decide)))
    ⟨_, List.mem_singleton_self _, by decide⟩)
  have hstart : ∃ s, startUp sampleLibrary (List.map asciiToLower) true .reliable
      ⟨default, default, default⟩ (sampleFile [corpEntry Config.actionHostResolve])
      { sampleConfig 0 with bypass := 1 } (corpTable actionClusterResolve) = .ok s := by
    apply (startUp_ok_iff hascii _ _ _).mpr
    rw [Config.applyDefaults_of_accepted haccepted]
    exact ⟨haccepted, corpEntry_fits _⟩
  rcases hstart with ⟨s, hs⟩
  rcases started_follows_file hs hascii with ⟨coredns, host, hcoredns, hhost, hall⟩
  have hc : some coredns = some [10, 96, 0, 10] := hcoredns.symm
  have hh : some host = some [10, 0, 0, 2] := hhost.symm
  cases hc
  cases hh
  refine ⟨s, hs, fun maps hmaps hrules => ?_⟩
  exact (hall maps 0 _ _ hmaps hrules (sampleQuery_asks (by decide) (by decide) (by decide))).1
    (by decide)

end DnsGateway.Cmd
