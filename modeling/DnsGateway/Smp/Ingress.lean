import DnsGateway.Smp.Runs
import DnsGateway.Bpf.Ingress

/-!
# An ingress run among others is an atomic run

Whatever the other CPUs and the controller do between the accesses of a run, it ends like the
program run in one go on maps that show what the run has seen of them.
-/

namespace DnsGateway.Smp

open DnsGateway.Reasoning DnsGateway.Bpf

variable {R : Shared → Shared → Prop} [Rely R] {cpu : Nat} {α : Type}

/-- The writes to `conntrack_map` of an ingress run with this result. -/
def Result.ingressWrites (r : Result) (ok : Helpers) (key : ConntrackKey) (val : ConntrackValue) :
    List Access :=
  if r.inserted = some true then
    .ctUpdate key val :: if r.natRc.getD 0 < 0 then deleteOps ok key else []
  else []

/-- Started behind `s`, the program ends like the atomic program `f` at some time of the run, on all
maps of which `P` holds; its writes to `conntrack_map` are for `key`. -/
def Refines (R : Shared → Shared → Prop) (cpu : Nat) (ok : Helpers) (key : ConntrackKey)
    (s : Shared) (P : Maps → Prop) (p : Run Result) (f : UInt64 → Maps → Outcome) : Prop :=
  ∀ t ops r u, Keeps s t → Runs (Shared.exec cpu) R p t ops r u →
    ∃ now, s.clock ≤ now ∧ now ≤ u.clock ∧
      ops.filter Access.tracks = r.ingressWrites ok key
        { corednsIp := s.config.corednsIp, timestampNs := now } ∧
      ∀ m, P m → Matches ops r m (f now m)

section Refines

variable {ok : Helpers} {key : ConntrackKey} {s : Shared} {P Q : Maps → Prop}

theorem Refines.bind {p : Run α} {q : α → Run Result} {a : α} {g : Maps → Maps}
    {f : UInt64 → Maps → Outcome} (hp : Does R cpu s p a g [])
    (hq : Refines R cpu ok key s Q (q a) f) (hPQ : ∀ m, P m → Q (g m)) :
    Refines R cpu ok key s P (p >>= q) fun now m => f now (g m) := by
  intro t ops r u hst h
  rcases (runs_bind Rely.refl Rely.trans).mp h with ⟨a', t₁, ops₁, ops₂, h₁, h₂, rfl⟩
  rcases hp t ops₁ a' t₁ hst h₁ with ⟨rfl, heffect, hw⟩
  rcases hq t₁ ops₂ r u (hst.trans _ _ _ (runs_keeps h₁)) h₂ with
    ⟨now, hlo, hhi, hwrites, hmatches⟩
  refine ⟨now, hlo, hhi, ?_, fun m hm => (hmatches (g m) (hPQ m hm)).after (heffect m)⟩
  rw [List.filter_append, hw, List.nil_append, hwrites]

theorem Refines.yields {p : Run α} {q : α → Run Result} {a : α} {f : UInt64 → Maps → Outcome}
    (hp : Yields R cpu s p a) (hq : Refines R cpu ok key s P (q a) f) :
    Refines R cpu ok key s P (p >>= q) f :=
  Refines.bind hp hq fun _ hm => hm

theorem Refines.count {p : Run Result} {f : UInt64 → Maps → Outcome}
    (hp : Refines R cpu ok key s P p f) (id : MetricId)
    (hP : ∀ m, P m → P (m.incrementMetric ok id)) :
    Refines R cpu ok key s P (incrementMetric ok id >>= fun _ => p)
      fun now m => f now (m.incrementMetric ok id) :=
  Refines.bind (does_incrementMetric ok s id) hp hP

theorem Refines.pass (skb : SkBuff) :
    Refines R cpu ok key s P (pure { skb := skb }) fun _ m => pass skb m := by
  intro t ops r u hst h
  have hsu := hst.trans _ _ _ (runs_keeps h)
  refine ⟨s.clock, UInt64.le_refl _, hsu.clock, ?_, fun m _ => (does_pure s _).matches hst h m⟩
  rcases runs_pure.mp h with ⟨rfl, rfl, -⟩
  rfl

omit [Rely R] in
theorem Refines.congr {p : Run Result} {f f' : UInt64 → Maps → Outcome}
    (h : Refines R cpu ok key s P p f) (hf : ∀ now m, P m → f' now m = f now m) :
    Refines R cpu ok key s P p f' := by
  intro t ops r u hst hruns
  rcases h t ops r u hst hruns with ⟨now, hlo, hhi, hwrites, hmatches⟩
  refine ⟨now, hlo, hhi, hwrites, fun m hm => ?_⟩
  rw [hf now m hm]
  exact hmatches m hm

omit [Rely R] in
-- The scratch buffer belongs to the run.
theorem Refines.scratch {p : Run Result} {f : UInt64 → Maps → Outcome} (x : ScratchBuf)
    (h : Refines R cpu ok key s Q p f) (hPQ : ∀ m, P m → Q { m with scratchMap := x }) :
    Refines R cpu ok key s P p fun now m => f now { m with scratchMap := x } := by
  intro t ops r u hst hruns
  rcases h t ops r u hst hruns with ⟨now, hlo, hhi, hwrites, hmatches⟩
  refine ⟨now, hlo, hhi, hwrites, fun m hm => ?_⟩
  have hm' := hmatches _ (hPQ m hm)
  exact ⟨⟨hm'.effect.metrics, hm'.effect.conntrack⟩, hm'.skb, hm'.inserted, hm'.natRc⟩

-- The clock is read once.
theorem Refines.ktime {q : UInt64 → Run Result} {r : UInt64 → Result} {g : UInt64 → Maps → Maps}
    {w : UInt64 → List Access} {f : UInt64 → Maps → Outcome}
    (hq : ∀ now, Does R cpu s (q now) (r now) (g now) (w now))
    (hw : ∀ now, w now = (r now).ingressWrites ok key
      { corednsIp := s.config.corednsIp, timestampNs := now })
    (hf : ∀ now m, f now m = { verdict := tcActOk, skb := (r now).skb, maps := g now m,
                               inserted := (r now).inserted, natRc := (r now).natRc }) :
    Refines R cpu ok key s P (ktimeGetNs >>= q) f := by
  intro t ops r' u hst h
  rcases runs_perform.mp h with ⟨t₁, ops', htt, rfl, hrest⟩
  have hst₁ := hst.trans _ _ _ (Rely.keeps htt)
  have hread : ∀ m, Effect [Access.ktime] m m := fun m => ⟨rfl, rfl⟩
  refine ⟨t₁.clock, hst₁.clock, (runs_keeps hrest).clock, ?_, fun m _ => ?_⟩
  · rcases hq t₁.clock t₁ ops' r' u hst₁ hrest with ⟨rfl, -, hops⟩
    rw [List.filter_cons_of_neg Bool.false_ne_true, hops, hw]
  · rw [hf]
    exact ((hq t₁.clock).matches hst₁ hrest m).after (hread m)

end Refines

theorem refines_ingressRedirect (ok : Helpers) (s : Shared) (P : Maps → Prop) {iph : IpHdr}
    {udp : UdpHdr} {txid : UInt16} (skb : SkBuff) {key : ConntrackKey}
    (hkey : key = { podIp := iph.saddr, podPort := udp.source, txid := txid })
    {cfg : GatewayConfig} (hcoredns : cfg.corednsIp = s.config.corednsIp)
    (hhost : cfg.hostResolverIp = s.config.hostResolverIp) :
    Refines R cpu ok key s P (ingressRedirect ok iph udp txid skb) fun now m =>
      Bpf.ingressRedirect ok now cfg iph udp txid skb m := by
  unfold ingressRedirect Bpf.ingressRedirect
  rw [hcoredns, hhost, ← hkey]
  dsimp only
  apply Refines.yields (yields_corednsIp s)
  cases hupdate : ok .ctUpdate with
  | false => exact Refines.ktime (fun now => does_pure s _) (fun _ => rfl) fun _ _ => rfl
  | true =>
      simp only [if_true]
      by_cases hrc : (natRewriteAddr ok skb (ethHlen + 16) (iph.udpOffset + 6) iph.daddr
          s.config.hostResolverIp).1 < 0
      · apply Refines.ktime
        · intro now
          apply (does_updateEntry s _ _).bind
          apply (yields_hostResolverIp s).bind
          rw [if_pos hrc]
          exact (does_countNatFailure ok s _).seq ((does_conntrackDelete ok s _).last _)
        · intro now
          rw [Result.ingressWrites, if_pos rfl, Option.getD_some, if_pos hrc]
          rfl
        · exact fun now m => if_pos hrc
      · apply Refines.ktime
        · intro now
          apply (does_updateEntry s _ _).bind
          apply (yields_hostResolverIp s).bind
          rw [if_neg hrc]
          exact (does_incrementMetric ok s _).last _
        · intro now
          rw [Result.ingressWrites, if_pos rfl, Option.getD_some, if_neg hrc]
          rfl
        · exact fun now m => if_neg hrc

/-- The maps have the rules of `s`, and the CPU's scratch slot holds `scratch`. -/
structure Shows (s : Shared) (scratch : ScratchBuf) (m : Maps) : Prop where
  rules : m.suffixRules = s.suffixRules
  scratch : m.scratchMap = scratch

theorem Shows.incrementMetric {s : Shared} {scratch : ScratchBuf} (ok : Helpers) (id : MetricId)
    (m : Maps) (h : Shows s scratch m) : Shows s scratch (m.incrementMetric ok id) :=
  ⟨(incrementMetric_suffixRules ok id m).trans h.rules,
    (incrementMetric_scratchMap ok id m).trans h.scratch⟩

theorem refines_ingressResolve (ok : Helpers) (s : Shared) (scratch : ScratchBuf) {iph : IpHdr}
    {udp : UdpHdr} {txid : UInt16} (labelOffsets : List Nat) (qnameTotalLen : Nat) (skb : SkBuff)
    {key : ConntrackKey}
    (hkey : key = { podIp := iph.saddr, podPort := udp.source, txid := txid })
    {cfg : GatewayConfig} (hcfg : SameSettings cfg s.config) :
    Refines R cpu ok key s (Shows s scratch)
      (ingressResolve ok iph udp txid scratch.qname labelOffsets qnameTotalLen skb) fun now m =>
      Bpf.ingressResolve ok now cfg iph udp txid labelOffsets qnameTotalLen skb m := by
  generalize hr : Bpf.matchSuffix ok s.suffixRules scratch.qname qnameTotalLen labelOffsets
    maxLabels 0 scratch.lookup = r
  unfold ingressResolve
  apply Refines.yields (yields_defaultAction s)
  apply Refines.yields (yields_matchSuffix ok s _ _ _ _ _ _ hr)
  have haction : Refines R cpu ok key s (fun _ => True)
      (if r.1.getD s.config.defaultAction ≠ actionHostResolve then do
        incrementMetric ok .clusterResolved
        pure { skb := skb }
      else ingressRedirect ok iph udp txid skb) fun now m =>
      if r.1.getD s.config.defaultAction ≠ actionHostResolve then
        pass skb (m.incrementMetric ok .clusterResolved)
      else Bpf.ingressRedirect ok now cfg iph udp txid skb m := by
    split
    · exact (Refines.pass skb).count .clusterResolved fun _ h => h
    · exact refines_ingressRedirect ok s _ skb hkey hcfg.corednsIp hcfg.hostResolverIp
  refine ((haction.count _ fun _ h => h).scratch { scratch with lookup := r.2 }
    fun _ _ => trivial).congr fun now m hm => ?_
  rw [Bpf.ingressResolve, hm.rules, hm.scratch, hr, hcfg.defaultAction]

theorem refines_ingressQuery (ok : Helpers) (s : Shared) (scratch : ScratchBuf) (skb : SkBuff)
    {cfg : GatewayConfig} (hcfg : SameSettings cfg s.config) :
    Refines R cpu ok skb.queryKey s (Shows s scratch)
      (ingressQuery ok skb.ipHdr skb.udpHdr scratch skb) fun now m =>
      Bpf.ingressQuery ok now cfg skb.ipHdr skb.udpHdr skb m := by
  have hpass : ∀ x, Refines R cpu ok skb.queryKey s (Shows s x) (pure { skb := skb })
      fun _ m => pass skb m := fun x => Refines.pass skb
  have herror : ∀ x, Refines R cpu ok skb.queryKey s (Shows s x)
      (incrementMetric ok .parseError >>= fun _ => pure { skb := skb })
      fun _ m => pass skb (m.incrementMetric ok .parseError) :=
    fun x => (hpass x).count .parseError (Shows.incrementMetric ok _)
  unfold ingressQuery Bpf.ingressQuery
  dsimp only
  cases hdns : skbLoadBytes (ok .loadDns) skb (skb.ipHdr.udpOffset + 8) 12 with
  | none => exact hpass scratch
  | some dnsHdr =>
      have hkey : skb.queryKey = ConntrackKey.mk skb.ipHdr.saddr skb.udpHdr.source
          (be16 (byteAt dnsHdr 0) (byteAt dnsHdr 1)) := by
        rcases skbLoadBytes_eq_some_iff.mp hdns with ⟨-, -, rfl⟩
        rw [byteAt_window _ _ _ _ (by decide), byteAt_window _ _ _ _ (by decide),
          SkBuff.ipHdr_saddr, SkBuff.udpHdr_source, SkBuff.ipHdr_udpOffset]
        rfl
      dsimp only
      split
      · exact hpass scratch
      · split
        · exact herror scratch
        · cases ok .scratchLookup with
          | false => exact hpass scratch
          | true =>
              simp only [if_true]
              cases hload : loadQname ok skb (skb.ipHdr.udpOffset + 8 + 12) scratch with
              | none => exact (hpass scratch).congr fun now m hm => by rw [hm.scratch, hload]
              | some loaded =>
                  rcases loaded with ⟨remaining, x⟩
                  dsimp only
                  cases hwalk : walkLabels x.qname remaining maxLabels {} with
                  | badLength =>
                      refine ((herror x).scratch x fun m hm => ⟨hm.rules, rfl⟩).congr
                        fun now m hm => ?_
                      simp only [hm.scratch, hload, hwalk]
                  | done w =>
                      dsimp only
                      split
                      · rename_i hzero
                        refine ((hpass x).scratch x fun m hm => ⟨hm.rules, rfl⟩).congr
                          fun now m hm => ?_
                        simp only [hm.scratch, hload, hwalk, if_pos hzero]
                      · rename_i hsome
                        split
                        · rename_i hlong
                          refine ((hpass x).scratch x fun m hm => ⟨hm.rules, rfl⟩).congr
                            fun now m hm => ?_
                          simp only [hm.scratch, hload, hwalk, if_neg hsome, if_pos hlong]
                        · rename_i hfits
                          refine ((refines_ingressResolve ok s x w.labelOffsets (w.pos + 1) skb hkey
                            hcfg).scratch x fun m hm => ⟨hm.rules, rfl⟩).congr fun now m hm => ?_
                          simp only [hm.scratch, hload, hwalk, if_neg hsome, if_neg hfits]

/-- `ingressHeaders` in one go. -/
def atomicHeaders (ok : Helpers) (now : UInt64) (cfg : GatewayConfig) (skb : SkBuff) (m : Maps) :
    Outcome :=
  match Bpf.parseUdp ok skb (fun iph => iph.daddr = cfg.corednsIp)
      (fun udp => udp.dest = cfg.dnsPort) with
  | none => pass skb m
  | some (iph, udp) => Bpf.ingressQuery ok now cfg iph udp skb (m.incrementMetric ok .dnsQueries)

theorem refines_ingressHeaders (ok : Helpers) (s : Shared) (scratch : ScratchBuf) (skb : SkBuff) :
    Refines R cpu ok skb.queryKey s (Shows s scratch) (ingressHeaders ok scratch skb) fun now m =>
      atomicHeaders ok now s.config skb m := by
  have haddr : ∀ iph : IpHdr, Yields R cpu s (do return decide (iph.daddr = (← cfgCorednsIp)))
      (decide (iph.daddr = s.config.corednsIp)) :=
    fun iph => (yields_corednsIp s).bind (does_pure s _)
  have hport : ∀ udp : UdpHdr, Yields R cpu s (do return decide (udp.dest = (← cfgDnsPort)))
      (decide (udp.dest = s.config.dnsPort)) :=
    fun udp => (yields_dnsPort s).bind (does_pure s _)
  apply Refines.yields (yields_parseUdp ok s skb haddr hport)
  unfold atomicHeaders
  cases hheaders : Bpf.parseUdp ok skb (fun iph => iph.daddr = s.config.corednsIp)
      (fun udp => udp.dest = s.config.dnsPort) with
  | none => exact Refines.pass skb
  | some headers =>
      rcases parseUdp_eq_some_iff.mp hheaders with ⟨-, -, hip, hudp, -, -⟩
      dsimp only
      rw [hip, hudp]
      exact (refines_ingressQuery ok s scratch skb ⟨rfl, rfl, rfl, rfl⟩).count .dnsQueries
        (Shows.incrementMetric ok _)

-- With `s` the memory in which the bypass bit is read.
theorem refines_ingressBypass (ok : Helpers) (s : Shared) (scratch : ScratchBuf) (skb : SkBuff) :
    Refines R cpu ok skb.queryKey s (Shows s scratch)
      (if s.config.bypass ≠ 0 then do
        incrementMetric ok .bypassActive
        pure { skb := skb }
      else ingressHeaders ok scratch skb) fun now m =>
      if s.config.bypass ≠ 0 then pass skb (m.incrementMetric ok .bypassActive)
      else atomicHeaders ok now s.config skb m := by
  split
  · exact (Refines.pass skb).count .bypassActive (Shows.incrementMetric ok _)
  · exact refines_ingressHeaders ok s scratch skb

/-- The run is one of `dns_gateway_ingress` in one go, at some time between its start and its end,
on any maps with the same rules and settings and with the bypass bit that the run has read. -/
def IngressAtomic (R : Shared → Shared → Prop) (ok : Helpers) (scratch : ScratchBuf)
    (skb : SkBuff) (s u : Shared) (ops : List Access) (r : Result) : Prop :=
  ∃ t now, R s t ∧ Keeps t u ∧ s.clock ≤ now ∧ now ≤ u.clock ∧
    ops.filter Access.tracks = r.ingressWrites ok skb.queryKey
      { corednsIp := s.config.corednsIp, timestampNs := now } ∧
    ∀ m, m.configMap = t.config → Shows s scratch m →
      Matches ops r m (Bpf.dnsGatewayIngress ok now skb m)

theorem ingress_atomic {ok : Helpers} {scratch : ScratchBuf} {skb : SkBuff} {s u : Shared}
    {ops : List Access} {r : Result}
    (h : Runs (Shared.exec cpu) R (dnsGatewayIngress ok scratch skb) s ops r u) :
    IngressAtomic R ok scratch skb s u ops r := by
  rcases (runs_bind Rely.refl Rely.trans).mp h with ⟨_, s₁, ops₁, ops₂, htotal, hrest, rfl⟩
  rcases does_incrementMetric ok s .totalPackets s ops₁ _ s₁ (Keeps.refl s) htotal with
    ⟨-, heffect, hw⟩
  have hss₁ : R s s₁ := runs_rely htotal hw
  cases hlookup : ok .configLookup with
  | false =>
      rw [hlookup, if_neg Bool.false_ne_true] at hrest
      rcases runs_pure.mp hrest with ⟨rfl, rfl, hs₁u⟩
      have hsu := (Rely.keeps hss₁).trans _ _ _ (Rely.keeps hs₁u)
      rw [List.append_nil]
      refine ⟨s, s.clock, Rely.refl s, hsu, UInt64.le_refl _, hsu.clock, hw,
        fun m hconfig hm => ?_⟩
      unfold Bpf.dnsGatewayIngress
      dsimp only
      rw [configLookup_incrementMetric, Maps.configLookup, hlookup, if_neg Bool.false_ne_true]
      exact ⟨heffect m, rfl, rfl, rfl⟩
  | true =>
      rw [hlookup, if_pos rfl] at hrest
      rcases runs_perform.mp hrest with ⟨t, ops₃, hs₁t, rfl, hbypass⟩
      have hRst : R s t := Rely.trans _ _ _ hss₁ hs₁t
      have hst := Rely.keeps hRst
      rcases refines_ingressBypass ok t scratch skb t ops₃ r u (Keeps.refl t) hbypass with
        ⟨now, hlo, hhi, hwrites, hmatches⟩
      refine ⟨t, now, hRst, runs_keeps hbypass, UInt64.le_trans hst.clock hlo, hhi, ?_,
        fun m hconfig hm => ?_⟩
      · rw [List.filter_append, hw, List.nil_append,
          List.filter_cons_of_neg Bool.false_ne_true, hwrites, hst.corednsIp]
      · have hread : Effect (ops₁ ++ [Access.bypass]) m (m.incrementMetric ok .totalPackets) :=
          (heffect m).trans ⟨rfl, rfl⟩
        unfold Bpf.dnsGatewayIngress
        dsimp only
        rw [configLookup_incrementMetric, Maps.configLookup, if_pos hlookup, hconfig,
          List.append_cons]
        refine (hmatches _ (Shows.incrementMetric ok _ m ⟨?_, hm.scratch⟩)).after hread
        exact hm.rules.trans hst.rules.symm

-- There are maps that show what the run has seen.
theorem IngressAtomic.on_maps {ok : Helpers} {scratch : ScratchBuf} {skb : SkBuff} {s u : Shared}
    {ops : List Access} {r : Result} (h : IngressAtomic R ok scratch skb s u ops r) :
    ∃ t now m, R s t ∧ m.configMap = t.config ∧ s.clock ≤ now ∧ now ≤ u.clock ∧
      ops.filter Access.tracks = r.ingressWrites ok skb.queryKey
        { corednsIp := s.config.corednsIp, timestampNs := now } ∧
      Matches ops r m (Bpf.dnsGatewayIngress ok now skb m) := by
  rcases h with ⟨t, now, hst, -, hlo, hhi, hops, hmatches⟩
  exact ⟨t, now, t.view ∅ scratch, hst, rfl, hlo, hhi, hops,
    hmatches _ rfl ⟨(Rely.keeps hst).rules, rfl⟩⟩

end DnsGateway.Smp
