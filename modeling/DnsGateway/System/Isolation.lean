import DnsGateway.Bpf.Masks
import DnsGateway.System.World

/-!
# Queries do not meet in the scratch buffer

`scratch_map` is never cleared: a run finds in it what the run before it on the same CPU has left.
It does not matter what that is, for one run and for whole runs of the system.
-/

namespace DnsGateway.Bpf

open DnsGateway.Reasoning

/-! ## What of the buffer is read -/

theorem load_agree (buf buf' : NameBuf) {q : List UInt8} (hq : q.length ≤ maxDnsNameLen) :
    ∀ i, i < q.length → NameBuf.at (buf.load q) i = NameBuf.at (buf'.load q) i := by
  intro i hi
  rw [(load_fresh buf hq).at_eq i hi, (load_fresh buf' hq).at_eq i hi]

section Agree

variable {buf buf' : NameBuf} {n : Nat} (hsame : ∀ i, i < n → NameBuf.at buf i = NameBuf.at buf' i)

include hsame

theorem walkUnmasked_agree (fuel : Nat) (s : WalkState) :
    walkUnmasked buf n fuel s = walkUnmasked buf' n fuel s := by
  induction fuel generalizing s with
  | zero => rfl
  | succ fuel ih =>
      rw [walkUnmasked, walkUnmasked]
      by_cases hend : s.pos ≥ n
      · rw [if_pos hend, if_pos hend]
      · rw [if_neg hend, if_neg hend, hsame _ (by omega)]
        dsimp only
        rw [ih]

theorem copyUnmasked_agree {start len : Nat} (hfits : start + len ≤ n) :
    copyUnmasked buf start len = copyUnmasked buf' start len := by
  apply Subtype.ext
  unfold copyUnmasked
  dsimp only
  apply List.map_congr_left
  intro k _
  by_cases hk : k < len
  · rw [if_pos hk, if_pos hk, hsame _ (by omega)]
  · rw [if_neg hk, if_neg hk]

-- The lookup buffer is written before it is looked up, so its old contents do not count either.
theorem matchUnmasked_agree (ok : Helpers) (rules : SuffixRules) {total : Nat} (htotal : total ≤ n)
    {offs : List Nat} (hoffs : ∀ start ∈ offs, start ≤ total) (i : Nat) (lookup lookup' : NameBuf) :
    (matchUnmasked ok rules buf total offs i lookup).1 =
      (matchUnmasked ok rules buf' total offs i lookup').1 := by
  induction offs generalizing i lookup lookup' with
  | nil => rfl
  | cons start offs ih =>
      have hstart := hoffs start List.mem_cons_self
      rw [matchUnmasked, matchUnmasked, copyUnmasked_agree hsame (by omega)]
      cases ruleLookup ok rules i (copyUnmasked buf' start (total - start)) with
      | some val => rfl
      | none => exact ih (fun x hx => hoffs x (List.mem_cons_of_mem _ hx)) _ _ _

theorem walkLabels_agree (hmax : n ≤ maxDnsNameLen) :
    walkLabels buf n maxLabels {} = walkLabels buf' n maxLabels {} := by
  rw [walkLabels_unmasked buf hmax, walkLabels_unmasked buf' hmax, walkUnmasked_agree hsame]

theorem matchSuffix_agree (hmax : n ≤ maxDnsNameLen) (ok : Helpers) (rules : SuffixRules)
    {w : WalkState} (hw : walkLabels buf n maxLabels {} = .done w) (hfits : w.pos + 1 ≤ n)
    (lookup lookup' : NameBuf) :
    (matchSuffix ok rules buf (w.pos + 1) w.labelOffsets maxLabels 0 lookup).1 =
      (matchSuffix ok rules buf' (w.pos + 1) w.labelOffsets maxLabels 0 lookup').1 := by
  have hoffs : ∀ start ∈ w.labelOffsets, start ≤ w.pos + 1 := fun start hs =>
    ((walkLabels_done_inv hw).2.plainSuffix hfits hmax start hs).le_total
  rw [matchSuffix_walked hw hfits hmax, matchSuffix_walked hw hfits hmax]
  exact matchUnmasked_agree hsame ok rules hfits hoffs _ _ _

end Agree

/-! ## One run -/

def Maps.withScratch (m : Maps) (s : ScratchBuf) : Maps := { m with scratchMap := s }

def Outcome.withScratch (o : Outcome) (s : ScratchBuf) : Outcome :=
  { o with maps := o.maps.withScratch s }

section Scratch

variable (ok : Helpers) (m : Maps) (s : ScratchBuf)

theorem incrementMetric_withScratch (id : MetricId) :
    (m.withScratch s).incrementMetric ok id = (m.incrementMetric ok id).withScratch s := by
  unfold Maps.incrementMetric
  split <;> rfl

theorem countNatFailure_withScratch (rc : Int) :
    (m.withScratch s).countNatFailure ok rc = (m.countNatFailure ok rc).withScratch s := by
  unfold Maps.countNatFailure
  rw [incrementMetric_withScratch]
  split
  · exact incrementMetric_withScratch ok _ s _
  · rfl

theorem configLookup_withScratch : (m.withScratch s).configLookup ok = m.configLookup ok := rfl

theorem conntrackDelete_withScratch (key : ConntrackKey) :
    (m.withScratch s).conntrackDelete ok key = (m.conntrackDelete ok key).withScratch s := by
  unfold Maps.conntrackDelete
  split <;> rfl

theorem ingressRedirect_withScratch (now : UInt64) (cfg : GatewayConfig) (iph : IpHdr)
    (udp : UdpHdr) (txid : UInt16) (skb : SkBuff) :
    ingressRedirect ok now cfg iph udp txid skb (m.withScratch s) =
      (ingressRedirect ok now cfg iph udp txid skb m).withScratch s := by
  let key : ConntrackKey := { podIp := iph.saddr, podPort := udp.source, txid := txid }
  let val : ConntrackValue := { corednsIp := cfg.corednsIp, timestampNs := now }
  let tracked : Maps := { m with conntrackMap := m.conntrackMap.insert key val }
  unfold ingressRedirect
  dsimp only
  split
  · generalize natRewriteAddr ok skb _ _ _ _ = nat
    split
    · have hcount := countNatFailure_withScratch ok tracked s nat.1
      have hdelete := conntrackDelete_withScratch ok (tracked.countNatFailure ok nat.1) s key
      rw [← hcount] at hdelete
      exact congrArg (Outcome.mk tcActOk nat.2 · (some true) (some nat.1)) hdelete
    · have hcount := incrementMetric_withScratch ok tracked s .redirected
      exact congrArg (Outcome.mk tcActOk nat.2 · (some true) (some nat.1)) hcount
  · rfl

end Scratch

/-- The outcomes differ at most in the scratch buffer. -/
def Outcome.Alike (o o' : Outcome) : Prop := ∀ t, o.withScratch t = o'.withScratch t

theorem Outcome.Alike.fields {o o' : Outcome} (h : o.Alike o') :
    (o.verdict = o'.verdict ∧ o.skb = o'.skb) ∧ (o.inserted = o'.inserted ∧ o.natRc = o'.natRc) ∧
      ∀ t, o.maps.withScratch t = o'.maps.withScratch t := by
  have hfields := fun t => Outcome.mk.inj (h t)
  rcases hfields o.maps.scratchMap with ⟨hverdict, hskb, -, hinserted, hnat⟩
  exact ⟨⟨hverdict, hskb⟩, ⟨hinserted, hnat⟩, fun t => (hfields t).2.2.1⟩

section Runs

variable (ok : Helpers) (now : UInt64) (skb : SkBuff) (m : Maps) (s s' : ScratchBuf)

theorem pass_alike : Outcome.Alike (pass skb (m.withScratch s)) (pass skb (m.withScratch s')) :=
  fun _ => rfl

theorem pass_count_alike (id : MetricId) :
    Outcome.Alike (pass skb ((m.withScratch s).incrementMetric ok id))
      (pass skb ((m.withScratch s').incrementMetric ok id)) := by
  rw [incrementMetric_withScratch, incrementMetric_withScratch]
  exact pass_alike skb _ s s'

theorem ingressResolve_alike (cfg : GatewayConfig) (iph : IpHdr) (udp : UdpHdr) (txid : UInt16)
    (offs : List Nat) (total : Nat)
    (hhit : (matchSuffix ok m.suffixRules s.qname total offs maxLabels 0 s.lookup).1 =
      (matchSuffix ok m.suffixRules s'.qname total offs maxLabels 0 s'.lookup).1) :
    Outcome.Alike (ingressResolve ok now cfg iph udp txid offs total skb (m.withScratch s))
      (ingressResolve ok now cfg iph udp txid offs total skb (m.withScratch s')) := by
  unfold ingressResolve
  dsimp only [Maps.withScratch]
  generalize matchSuffix ok m.suffixRules s.qname total offs maxLabels 0 s.lookup = p at hhit ⊢
  generalize matchSuffix ok m.suffixRules s'.qname total offs maxLabels 0 s'.lookup = p' at hhit ⊢
  rcases p with ⟨hit, lookup⟩
  rcases p' with ⟨hit', lookup'⟩
  cases hhit
  -- Behind the lookup the buffer is carried along.
  change Outcome.Alike
    (if _ then pass skb (((m.withScratch ⟨s.qname, lookup⟩).incrementMetric ok _).incrementMetric
        ok _) else ingressRedirect ok now cfg iph udp txid skb
      ((m.withScratch ⟨s.qname, lookup⟩).incrementMetric ok _))
    (if _ then pass skb (((m.withScratch ⟨s'.qname, lookup'⟩).incrementMetric ok _).incrementMetric
        ok _) else ingressRedirect ok now cfg iph udp txid skb
      ((m.withScratch ⟨s'.qname, lookup'⟩).incrementMetric ok _))
  rw [incrementMetric_withScratch, incrementMetric_withScratch, incrementMetric_withScratch,
    incrementMetric_withScratch, ingressRedirect_withScratch, ingressRedirect_withScratch]
  split
  · exact pass_alike skb _ _ _
  · exact fun _ => rfl

theorem ingressQuery_alike (cfg : GatewayConfig) (iph : IpHdr) (udp : UdpHdr) :
    Outcome.Alike (ingressQuery ok now cfg iph udp skb (m.withScratch s))
      (ingressQuery ok now cfg iph udp skb (m.withScratch s')) := by
  unfold ingressQuery
  dsimp only
  cases skbLoadBytes (ok .loadDns) skb (iph.udpOffset + 8) 12 with
  | none => exact pass_alike skb m s s'
  | some dnsHdr =>
      dsimp only
      split
      · exact pass_alike skb m s s'
      · split
        · exact pass_count_alike ok skb m s s' .parseError
        · split
          · rcases loadQname_bytes ok skb (iph.udpOffset + 8 + 12) with ⟨loaded, hbytes, -, hload⟩
            rw [hload, hload]
            cases hq : loaded with
            | none => exact pass_alike skb m s s'
            | some q =>
                rcases hbytes q hq with ⟨-, hwin⟩
                have hmax : q.length ≤ maxDnsNameLen := hwin ▸ List.length_take_le _ _
                have hsame := load_agree s.qname s'.qname hmax
                dsimp only [Option.map_some, Maps.withScratch]
                rw [← walkLabels_agree hsame hmax]
                cases hw : walkLabels (s.qname.load q) q.length maxLabels {} with
                | badLength => exact pass_count_alike ok skb m _ _ .parseError
                | done w =>
                    dsimp only
                    split
                    · exact pass_alike skb m _ _
                    · split
                      · exact pass_alike skb m _ _
                      · apply ingressResolve_alike
                        exact matchSuffix_agree hsame hmax ok m.suffixRules hw (by omega) _ _
          · exact pass_alike skb m s s'

theorem ingress_alike :
    Outcome.Alike (dnsGatewayIngress ok now skb (m.withScratch s))
      (dnsGatewayIngress ok now skb (m.withScratch s')) := by
  unfold dnsGatewayIngress
  rw [incrementMetric_withScratch, incrementMetric_withScratch]
  generalize m.incrementMetric ok .totalPackets = m
  dsimp only
  rw [configLookup_withScratch, configLookup_withScratch]
  cases m.configLookup ok with
  | none => exact pass_alike skb m s s'
  | some cfg =>
      dsimp only
      split
      · exact pass_count_alike ok skb m s s' .bypassActive
      · generalize parseUdp ok skb _ _ = parsed
        cases parsed with
        | none => exact pass_alike skb m s s'
        | some headers =>
            dsimp only
            rw [incrementMetric_withScratch, incrementMetric_withScratch]
            exact ingressQuery_alike ok now skb _ s s' cfg headers.1 headers.2

theorem egressSnat_withScratch (iph : IpHdr) (udp : UdpHdr) (txid : UInt16) :
    egressSnat ok now iph udp txid skb (m.withScratch s) =
      (egressSnat ok now iph udp txid skb m).withScratch s := by
  let key : ConntrackKey := { podIp := iph.daddr, podPort := udp.dest, txid := txid }
  unfold egressSnat
  dsimp only
  rw [show (m.withScratch s).conntrackMap = m.conntrackMap from rfl]
  cases (if ok .ctLookup then m.conntrackMap.lookup key else none) with
  | none =>
      exact congrArg (pass skb) (incrementMetric_withScratch ok m s _)
  | some ctVal =>
      dsimp only
      rw [conntrackDelete_withScratch, incrementMetric_withScratch, incrementMetric_withScratch]
      split
      · rfl
      · generalize natRewriteAddr ok skb _ _ _ _ = nat
        rw [countNatFailure_withScratch]
        split <;> rfl

theorem egress_withScratch :
    dnsGatewayEgress ok now skb (m.withScratch s) =
      (dnsGatewayEgress ok now skb m).withScratch s := by
  unfold dnsGatewayEgress
  rw [incrementMetric_withScratch]
  generalize m.incrementMetric ok .egressTotal = m
  dsimp only
  rw [configLookup_withScratch]
  cases m.configLookup ok with
  | none => rfl
  | some cfg =>
      dsimp only
      generalize parseUdp ok skb _ _ = parsed
      cases parsed with
      | none => rfl
      | some headers =>
          dsimp only
          cases skbLoadBytes (ok .loadDns) skb (headers.1.udpOffset + 8) 12 with
          | none => rfl
          | some dnsHdr => exact egressSnat_withScratch ok now skb m s headers.1 headers.2 _

end Runs

/-- Two runs of `dns_gateway_ingress` on the same packet and the same maps, apart from what the
runs before them left in the scratch buffer, hand on the same packet and leave the same maps, apart
from the scratch buffer again. -/
theorem ingress_ignores_scratch (ok : Helpers) (now : UInt64) (skb : SkBuff) (m : Maps)
    (s s' : ScratchBuf) :
    let o := dnsGatewayIngress ok now skb { m with scratchMap := s }
    let o' := dnsGatewayIngress ok now skb { m with scratchMap := s' }
    (o.verdict = o'.verdict ∧ o.skb = o'.skb) ∧
      o.maps.conntrackMap = o'.maps.conntrackMap ∧ o.maps.metricsMap = o'.maps.metricsMap ∧
      (o.maps.configMap = o'.maps.configMap ∧ o.maps.suffixRules = o'.maps.suffixRules) ∧
      o.inserted = o'.inserted ∧ o.natRc = o'.natRc := by
  rcases (ingress_alike ok now skb m s s').fields with ⟨hpacket, hcalls, hmaps⟩
  rcases Maps.mk.inj (hmaps s) with ⟨hrules, hconfig, hconntrack, hmetrics, -⟩
  exact ⟨hpacket, hconntrack, hmetrics, ⟨hconfig, hrules⟩, hcalls⟩

end DnsGateway.Bpf

namespace DnsGateway

open Reasoning Bpf

/-! ## Whole runs -/

/-- The same input, or two moves to CPUs whose scratch slots hold different bytes. -/
inductive Step.Alike : Step → Step → Prop where
  | same (a : Step) : Step.Alike a a
  | cpu (s s' : ScratchBuf) : Step.Alike (.cpu s) (.cpu s')

def World.Alike (w w' : World) : Prop :=
  w.clock = w'.clock ∧ ∀ t, w.maps.withScratch t = w'.maps.withScratch t

/-- The packets a step hands on. -/
def World.sent (w : World) : Step → List SkBuff
  | .ingress ok skb => [(w.ingress ok skb).skb]
  | .egress ok skb => [(w.egress ok skb).skb]
  | _ => []

section Lockstep

variable {w w' : World} (h : w.Alike w')

include h

theorem World.Alike.ingress (ok : Helpers) (skb : SkBuff) :
    (w.ingress ok skb).Alike (w'.ingress ok skb) := by
  have hmaps : w'.maps = w.maps.withScratch w'.maps.scratchMap := (h.2 _).symm
  unfold World.ingress
  rw [← h.1, hmaps]
  exact ingress_alike ok w.clock skb w.maps w.maps.scratchMap _

theorem World.Alike.egress (ok : Helpers) (skb : SkBuff) :
    (w.egress ok skb).Alike (w'.egress ok skb) := by
  have hmaps : w'.maps = w.maps.withScratch w'.maps.scratchMap := (h.2 _).symm
  unfold World.egress
  rw [← h.1, hmaps, egress_withScratch]
  exact fun _ => rfl

theorem World.Alike.step {a a' : Step} (ha : a.Alike a') :
    (w.step a).Alike (w'.step a') ∧ w.emit a = w'.emit a' ∧ w.sent a = w'.sent a' := by
  cases ha with
  | cpu s s' => exact ⟨⟨h.1, h.2⟩, rfl, rfl⟩
  | same =>
      cases a with
      | ingress ok skb =>
          rcases (h.ingress ok skb).fields with ⟨⟨-, hskb⟩, ⟨hins, hnat⟩, hmaps⟩
          refine ⟨⟨h.1, hmaps⟩, ?_, congrArg (fun p => [p]) hskb⟩
          show queryEvents skb w.clock _ = queryEvents skb w'.clock _
          rw [queryEvents, queryEvents, hins, hnat, h.1]
      | egress ok skb =>
          rcases (h.egress ok skb).fields with ⟨⟨-, hskb⟩, ⟨-, hnat⟩, hmaps⟩
          refine ⟨⟨h.1, hmaps⟩, ?_, congrArg (fun p => [p]) hskb⟩
          show responseEvents skb _ = responseEvents skb _
          rw [responseEvents, responseEvents, hnat]
      -- The remaining writes are to the other maps.
      | setBypass lookupOk updateOk on =>
          exact ⟨⟨h.1, fun t => congrArg (fun m : Maps =>
            { m with configMap := (Ebpf.setBypass lookupOk updateOk on m.configMap).2 }) (h.2 t)⟩,
            rfl, rfl⟩
      | setConfig cfg =>
          exact ⟨⟨h.1, fun t => congrArg (fun m : Maps => { m with configMap := cfg }) (h.2 t)⟩,
            rfl, rfl⟩
      | setRules rules =>
          exact ⟨⟨h.1, fun t => congrArg (fun m : Maps => { m with suffixRules := rules }) (h.2 t)⟩,
            rfl, rfl⟩
      | evict key =>
          exact ⟨⟨h.1, fun t => congrArg (fun m : Maps =>
            { m with conntrackMap := m.conntrackMap.erase key }) (h.2 t)⟩, rfl, rfl⟩
      | cpu s => exact ⟨⟨h.1, h.2⟩, rfl, rfl⟩
      | tick t => exact ⟨⟨congrArg (fun c => if c ≤ t then t else c) h.1, h.2⟩, rfl, rfl⟩

end Lockstep

/-- Whatever the scratch slots hold at the start and on every CPU a run moves to, the run logs the
same events, hands on the same packets and leaves the same state but for the scratch slot. -/
theorem run_ignores_scratch {w w' : World} (h : w.Alike w') {steps steps' : List Step}
    (hsteps : List.Forall₂ Step.Alike steps steps') :
    (w.run steps).Alike (w'.run steps') ∧ w.events steps = w'.events steps' ∧
      logFrom World.step World.sent w steps = logFrom World.step World.sent w' steps' := by
  have hlogged : ∀ (w w' : World) (a a' : Step), w.Alike w' → a.Alike a' →
      (w.step a).Alike (w'.step a') ∧ w.emit a = w'.emit a' :=
    fun w w' a a' hw ha => ⟨(hw.step ha).1, (hw.step ha).2.1⟩
  have hsent : ∀ (w w' : World) (a a' : Step), w.Alike w' → a.Alike a' →
      (w.step a).Alike (w'.step a') ∧ w.sent a = w'.sent a' :=
    fun w w' a a' hw ha => ⟨(hw.step ha).1, (hw.step ha).2.2⟩
  have hrun := foldl_lockstep hlogged h hsteps
  exact ⟨hrun.1, hrun.2, (foldl_lockstep hsent h hsteps).2⟩

/-- What a longer name `bbb...` has left in the buffer. -/
def usedScratch : ScratchBuf where
  qname := List.Vector.replicate maxDnsNameLen 98
  lookup := List.Vector.replicate maxDnsNameLen 98

theorem sampleWorld_ignores_scratch :
    (sampleWorld.run [.cpu usedScratch, .ingress .allOk shortQuery, .tick 1000000000,
        .egress .allOk shortResponse]).Alike
      (sampleWorld.run [.cpu sampleWorld.maps.scratchMap, .ingress .allOk shortQuery,
        .tick 1000000000, .egress .allOk shortResponse]) :=
  (run_ignores_scratch ⟨rfl, fun _ => rfl⟩ (.cons (.cpu _ _) (.cons (.same _) (.cons (.same _)
    (.cons (.same _) .nil))))).1

end DnsGateway
