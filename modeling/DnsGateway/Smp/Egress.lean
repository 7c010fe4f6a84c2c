import DnsGateway.Smp.Runs
import DnsGateway.Bpf.Egress

/-!
# An egress run among others is an atomic run

What the run sees of the entry of its key are the answers of three accesses, with those of the
others in between.
-/

namespace DnsGateway.Smp

open DnsGateway.Reasoning DnsGateway.Bpf

variable {R : Shared → Shared → Prop} [Rely R] {cpu : Nat}

/-- What a run from `s` to `u` can have seen of the entry of `key`: nothing at its lookup, or the
fields that it read through the pointer one after the other. -/
inductive Seen (R : Shared → Shared → Prop) (s u : Shared) (key : ConntrackKey) :
    Option ConntrackValue → Prop where
  | missing (t : Shared) (hst : R s t) (htu : Keeps t u)
      (h : t.conntrack.index.lookup key = none) : Seen R s u key none
  | entry (t t₁ t₂ : Shared) (p : Nat) (hst : R s t)
      (h : t.conntrack.index.lookup key = some p) (htt₁ : R t t₁) (ht₁t₂ : R t₁ t₂)
      (ht₂u : Keeps t₂ u) :
      Seen R s u key (some {
        corednsIp := (t₂.conntrack.read p).corednsIp
        timestampNs := (t₁.conntrack.read p).timestampNs })

theorem seen_some {s u : Shared} (hsu : Keeps s u) (key : ConntrackKey) :
    ∃ found, Seen R s u key found := by
  cases h : s.conntrack.index.lookup key with
  | none => exact ⟨none, .missing s (Rely.refl s) hsu h⟩
  | some p => exact ⟨_, .entry s s s p (Rely.refl s) h (Rely.refl s) (Rely.refl s) hsu⟩

theorem Seen.behind {s t u : Shared} {key : ConntrackKey} {found : Option ConntrackValue}
    (hst : R s t) (h : Seen R t u key found) : Seen R s u key found := by
  cases h with
  | missing t' htt' ht'u hp => exact .missing t' (Rely.trans _ _ _ hst htt') ht'u hp
  | entry t' t₁ t₂ p htt' hp htt₁ ht₁t₂ ht₂u =>
      exact .entry t' t₁ t₂ p (Rely.trans _ _ _ hst htt') hp htt₁ ht₁t₂ ht₂u

-- What is read through the pointer to an element is that element or one of the later ones.
theorem read_behind {t u : Shared} (htu : Keeps t u) {p : Nat} {e : ConntrackKey × ConntrackValue}
    (hp : t.conntrack.elems[p]? = some e) :
    ∃ e', u.conntrack.elems[u.conntrack.cell p]? = some e' ∧ u.conntrack.read p = e'.2 := by
  have hp' := getElem?_mono htu.elems hp
  have hlt := u.conntrack.cell_lt p (List.getElem?_eq_some_iff.mp hp').1
  have he' := List.getElem?_eq_getElem hlt
  refine ⟨_, he', ?_⟩
  unfold Conntrack.read
  rw [he']

-- The two reads through the pointer of a lookup: of that element, or of later ones.
theorem Seen.elements {s u : Shared} {key : ConntrackKey} {v : ConntrackValue}
    (h : Seen Keeps s u key (some v)) :
    ∃ p q val e e', u.conntrack.elems[p]? = some (key, val) ∧ u.conntrack.elems[q]? = some e ∧
      p ≤ q ∧ (u.conntrack.cell p = p → q = p) ∧ e' ∈ u.conntrack.elems ∧
      v.timestampNs = e.2.timestampNs ∧ v.corednsIp = e'.2.corednsIp := by
  cases h with
  | entry t t₁ t₂ p hst hlookup htt₁ ht₁t₂ ht₂u =>
      rcases t.conntrack.index_ok _ _ hlookup with ⟨val, hp, -⟩
      have ht₁u := ht₁t₂.trans _ _ _ ht₂u
      rcases read_behind htt₁ hp with ⟨e₁, he₁, hread₁⟩
      rcases read_behind (htt₁.trans _ _ _ ht₁t₂) hp with ⟨e₂, he₂, hread₂⟩
      rw [hread₁, hread₂]
      exact ⟨p, t₁.conntrack.cell p, val, e₁, e₂,
        getElem?_mono (htt₁.trans _ _ _ ht₁u).elems hp, getElem?_mono ht₁u.elems he₁,
        t₁.conntrack.cell_ge p, ht₁u.cells p,
        List.mem_of_getElem? (getElem?_mono ht₂u.elems he₂), rfl, rfl⟩

/-- The writes to `conntrack_map` of an egress run. -/
def EgressWrites (ok : Helpers) (key : ConntrackKey) (ops : List Access) : Prop :=
  ops.filter Access.tracks = [] ∨ ops.filter Access.tracks = deleteOps ok key

-- The end of a run that has found a fresh entry.
theorem egressNat_ends {ok : Helpers} {key : ConntrackKey} {nat : Int × SkBuff} {s u : Shared}
    {ops : List Access} {r : Result}
    (h : Runs (Shared.exec cpu) R
      (if nat.1 < 0 then do
        countNatFailure ok nat.1
        pure { skb := nat.2, natRc := some nat.1 }
      else do
        conntrackDelete ok key
        incrementMetric ok .egressSnat
        pure { skb := nat.2, natRc := some nat.1 }) s ops r u) :
    EgressWrites ok key ops ∧ ∀ m, Matches ops r m
      (if nat.1 < 0 then
        { verdict := tcActOk, skb := nat.2, natRc := some nat.1
          maps := m.countNatFailure ok nat.1 }
      else
        { verdict := tcActOk, skb := nat.2, natRc := some nat.1
          maps := (m.conntrackDelete ok key).incrementMetric ok .egressSnat }) := by
  by_cases hrc : nat.1 < 0
  · simp only [if_pos hrc] at h ⊢
    have hdoes : Does R cpu s _ _ _ _ := (does_countNatFailure ok s nat.1).last
      { skb := nat.2, natRc := some nat.1 : Result }
    exact ⟨Or.inl (hdoes s ops r u (Keeps.refl s) h).2.2, hdoes.matches (Keeps.refl s) h⟩
  · simp only [if_neg hrc] at h ⊢
    have hdoes : Does R cpu s _ _ _ _ := (does_conntrackDelete ok s key).seq
      ((does_incrementMetric ok s .egressSnat).last { skb := nat.2, natRc := some nat.1 : Result })
    rw [List.append_nil] at hdoes
    exact ⟨Or.inr (hdoes s ops r u (Keeps.refl s) h).2.2, hdoes.matches (Keeps.refl s) h⟩

theorem egressSnat_atomic {ok : Helpers} {iph : IpHdr} {udp : UdpHdr} {txid : UInt16}
    {skb : SkBuff} {s u : Shared} {ops : List Access} {r : Result} {key : ConntrackKey}
    (hkey : key = { podIp := iph.daddr, podPort := udp.dest, txid := txid })
    (h : Runs (Shared.exec cpu) R (egressSnat ok iph udp txid skb) s ops r u) :
    ∃ now found, s.clock ≤ now ∧ now ≤ u.clock ∧ Seen R s u key found ∧ EgressWrites ok key ops ∧
      ∀ m, m.conntrackMap.lookup key = found →
        Matches ops r m (Bpf.egressSnat ok now iph udp txid skb m) := by
  have hsu := runs_keeps h
  unfold egressSnat at h
  unfold Bpf.egressSnat
  dsimp only at h ⊢
  rw [← hkey] at h ⊢
  unfold conntrackLookup at h
  cases hlookup : ok .ctLookup with
  | false =>
      rw [hlookup] at h
      simp only [if_neg Bool.false_ne_true] at h ⊢
      have hmiss : Does R cpu s _ _ _ _ := (does_incrementMetric ok s .egressConntrackMiss).last
        { skb := skb : Result }
      rcases seen_some (R := R) hsu key with ⟨found, hseen⟩
      refine ⟨s.clock, found, UInt64.le_refl _, hsu.clock, hseen, ?_, fun m _ => ?_⟩
      · exact Or.inl (hmiss s ops r u (Keeps.refl s) h).2.2
      · exact hmiss.matches (Keeps.refl s) h m
  | true =>
      rw [hlookup, if_pos rfl] at h
      simp only [if_true]
      rcases runs_perform.mp h with ⟨t, ops₁, hst, rfl, hfound⟩
      have hread : ∀ m, Effect [Access.ctLookup key] m m := fun m => ⟨rfl, rfl⟩
      cases hp : t.conntrack.index.lookup key with
      | none =>
          have hans : (Shared.exec cpu (.ctLookup key) t).1 = none := hp
          rw [hans] at hfound
          have htu : Keeps t u := runs_keeps hfound
          have hmiss : Does R cpu t _ _ _ _ := (does_incrementMetric ok t .egressConntrackMiss).last
            { skb := skb : Result }
          refine ⟨s.clock, none, UInt64.le_refl _, hsu.clock, .missing t hst htu hp, ?_,
            fun m hm => ?_⟩
          · exact Or.inl (hmiss t ops₁ r u (Keeps.refl t) hfound).2.2
          · rw [hm]
            exact (hmiss.matches (Keeps.refl t) hfound m).after (hread m)
      | some p =>
          have hans : (Shared.exec cpu (.ctLookup key) t).1 = some p := hp
          rw [hans] at hfound
          rcases runs_perform.mp hfound with ⟨t₀, ops₂, htt₀, rfl, hclock⟩
          rcases runs_perform.mp hclock with ⟨t₁, ops₃, ht₀t₁, rfl, htime⟩
          have hst₀ : Keeps s t₀ := Rely.keeps (Rely.trans _ _ _ hst htt₀)
          have htt₁ : R t t₁ := Rely.trans _ _ _ htt₀ ht₀t₁
          have hreads : ∀ m, Effect
              ([Access.ctLookup key] ++ [Access.ktime] ++ [Access.ctTimestamp p]) m m :=
            fun m => ((hread m).trans ⟨rfl, rfl⟩).trans ⟨rfl, rfl⟩
          have ht₁u : Keeps t₁ u := runs_keeps htime
          have ht₀u : Keeps t₀ u := (Rely.keeps ht₀t₁).trans _ _ _ ht₁u
          have hnow : (Shared.exec cpu .ktime t₀).1 = t₀.clock := rfl
          have hts : (Shared.exec cpu (.ctTimestamp p) t₁).1 =
            (t₁.conntrack.read p).timestampNs := rfl
          rw [hnow, hts] at htime
          split at htime
          · rename_i hold
            have hstale : Does R cpu t₁ _ _ _ _ := (does_conntrackDelete ok t₁ key).seq
              ((does_incrementMetric ok t₁ .egressConntrackMiss).last { skb := skb : Result })
            rw [List.append_nil] at hstale
            refine ⟨t₀.clock, _, hst₀.clock, ht₀u.clock,
              .entry t t₁ t₁ p hst hp htt₁ (Rely.refl t₁) ht₁u, ?_, fun m hm => ?_⟩
            · exact Or.inr (hstale t₁ ops₃ r u (Keeps.refl t₁) htime).2.2
            · rw [hm]
              dsimp only
              rw [if_pos hold]
              exact (hstale.matches (Keeps.refl t₁) htime m).after (hreads m)
          · rename_i hfresh
            rcases runs_perform.mp htime with ⟨t₂, ops₄, ht₁t₂, rfl, hnat⟩
            rcases egressNat_ends hnat with ⟨hwrites, hmatches⟩
            refine ⟨t₀.clock, _, hst₀.clock, ht₀u.clock,
              .entry t t₁ t₂ p hst hp htt₁ ht₁t₂ (runs_keeps hnat), hwrites, fun m hm => ?_⟩
            rw [hm]
            dsimp only
            rw [if_neg hfresh]
            have hread' : Effect [Access.ctCorednsIp p] m m := ⟨rfl, rfl⟩
            exact (hmatches m).after ((hreads m).trans hread')

/-- `dns_gateway_egress` in one go, behind the lookup of the configuration. -/
def atomicSnat (ok : Helpers) (now : UInt64) (cfg : GatewayConfig) (skb : SkBuff) (m : Maps) :
    Outcome :=
  match Bpf.parseUdp ok skb (fun iph => iph.saddr = cfg.hostResolverIp)
      (fun udp => udp.source = cfg.dnsPort) with
  | none => pass skb m
  | some (iph, udp) =>
    match skbLoadBytes (ok .loadDns) skb (iph.udpOffset + 8) 12 with
    | none => pass skb m
    | some dnsHdr => Bpf.egressSnat ok now iph udp (be16 (byteAt dnsHdr 0) (byteAt dnsHdr 1)) skb m

theorem atomicSnat_eq {ok : Helpers} (hlookup : ok .configLookup = true) (now : UInt64)
    {cfg : GatewayConfig} (skb : SkBuff) {m : Maps} (hm : SameSettings m.configMap cfg) :
    Bpf.dnsGatewayEgress ok now skb m =
      atomicSnat ok now cfg skb (m.incrementMetric ok .egressTotal) := by
  unfold Bpf.dnsGatewayEgress
  dsimp only
  rw [configLookup_incrementMetric, Maps.configLookup, if_pos hlookup]
  dsimp only
  rw [hm.hostResolverIp, hm.dnsPort]
  rfl

/-- The run is one of `dns_gateway_egress` in one go, at some time between its start and its end, on
any maps with the same settings and with the entry of its key that the run has seen. -/
def EgressAtomic (R : Shared → Shared → Prop) (ok : Helpers) (skb : SkBuff) (s u : Shared)
    (ops : List Access) (r : Result) : Prop :=
  ∃ now found, s.clock ≤ now ∧ now ≤ u.clock ∧ Seen R s u skb.responseKey found ∧
    EgressWrites ok skb.responseKey ops ∧
    ∀ m, SameSettings m.configMap s.config → m.conntrackMap.lookup skb.responseKey = found →
      Matches ops r m (Bpf.dnsGatewayEgress ok now skb m)

-- The returns in front of the conntrack lookup.
theorem EgressAtomic.early {ok : Helpers} {skb : SkBuff} {s u : Shared} {ops : List Access}
    (hsu : Keeps s u) (heffect : ∀ m, Effect ops m (m.incrementMetric ok .egressTotal))
    (hw : ops.filter Access.tracks = [])
    (hout : ∀ now m, SameSettings m.configMap s.config →
      Bpf.dnsGatewayEgress ok now skb m = pass skb (m.incrementMetric ok .egressTotal)) :
    EgressAtomic R ok skb s u ops { skb := skb } := by
  rcases seen_some (R := R) hsu skb.responseKey with ⟨found, hseen⟩
  refine ⟨s.clock, found, UInt64.le_refl _, hsu.clock, hseen, Or.inl hw, fun m hm _ => ?_⟩
  rw [hout _ m hm]
  exact ⟨heffect m, rfl, rfl, rfl⟩

theorem egress_atomic {ok : Helpers} {skb : SkBuff} {s u : Shared} {ops : List Access} {r : Result}
    (h : Runs (Shared.exec cpu) R (dnsGatewayEgress ok skb) s ops r u) :
    EgressAtomic R ok skb s u ops r := by
  have hsu := runs_keeps h
  rcases (runs_bind Rely.refl Rely.trans).mp h with ⟨_, s₁, ops₁, ops₂, htotal, hrest, rfl⟩
  rcases does_incrementMetric ok s .egressTotal s ops₁ _ s₁ (Keeps.refl s) htotal with
    ⟨-, heffect, hw⟩
  have hss₁ : R s s₁ := runs_rely htotal hw
  cases hlookup : ok .configLookup with
  | false =>
      rw [hlookup, if_neg Bool.false_ne_true] at hrest
      rcases runs_pure.mp hrest with ⟨rfl, rfl, -⟩
      rw [List.append_nil]
      refine EgressAtomic.early hsu heffect hw fun now m _ => ?_
      unfold Bpf.dnsGatewayEgress
      dsimp only
      rw [configLookup_incrementMetric, Maps.configLookup, hlookup, if_neg Bool.false_ne_true]
  | true =>
      rw [hlookup, if_pos rfl] at hrest
      have haddr : ∀ iph : IpHdr, Yields R cpu s
          (do return decide (iph.saddr = (← cfgHostResolverIp)))
          (decide (iph.saddr = s.config.hostResolverIp)) :=
        fun iph => (yields_hostResolverIp s).bind (does_pure s _)
      have hport : ∀ udp : UdpHdr, Yields R cpu s (do return decide (udp.source = (← cfgDnsPort)))
          (decide (udp.source = s.config.dnsPort)) :=
        fun udp => (yields_dnsPort s).bind (does_pure s _)
      rcases (runs_bind Rely.refl Rely.trans).mp hrest with
        ⟨headers, s₂, ops₃, ops₄, hparse, hsnat, rfl⟩
      rcases yields_parseUdp ok s skb haddr hport s₁ ops₃ headers s₂ (Rely.keeps hss₁) hparse
        with
        ⟨rfl, heffect', hw'⟩
      have hss₂ : R s s₂ := Rely.trans _ _ _ hss₁ (runs_rely hparse hw')
      have hops : ∀ m, Effect (ops₁ ++ ops₃) m (m.incrementMetric ok .egressTotal) :=
        fun m => (heffect m).trans (heffect' _)
      have hsilent : (ops₁ ++ ops₃).filter Access.tracks = [] := by
        rw [List.filter_append, hw, hw', List.nil_append]
      rw [← List.append_assoc]
      cases hheaders : Bpf.parseUdp ok skb (fun iph => iph.saddr = s.config.hostResolverIp)
          (fun udp => udp.source = s.config.dnsPort) with
      | none =>
          rw [hheaders] at hsnat
          rcases runs_pure.mp hsnat with ⟨rfl, rfl, -⟩
          rw [List.append_nil]
          refine EgressAtomic.early hsu hops hsilent fun now m hm => ?_
          rw [atomicSnat_eq hlookup now skb hm, atomicSnat, hheaders]
      | some headers =>
          rcases headers with ⟨iph, udp⟩
          rw [hheaders] at hsnat
          dsimp only at hsnat
          cases hload : skbLoadBytes (ok .loadDns) skb (iph.udpOffset + 8) 12 with
          | none =>
              rw [hload] at hsnat
              rcases runs_pure.mp hsnat with ⟨rfl, rfl, -⟩
              rw [List.append_nil]
              refine EgressAtomic.early hsu hops hsilent fun now m hm => ?_
              rw [atomicSnat_eq hlookup now skb hm, atomicSnat, hheaders]
              dsimp only
              rw [hload]
          | some dnsHdr =>
              rw [hload] at hsnat
              have hkey : skb.responseKey = ConntrackKey.mk iph.daddr udp.dest
                  (be16 (byteAt dnsHdr 0) (byteAt dnsHdr 1)) := by
                rcases parseUdp_eq_some_iff.mp hheaders with ⟨-, -, rfl, rfl, -, -⟩
                rcases skbLoadBytes_eq_some_iff.mp hload with ⟨-, -, rfl⟩
                rw [byteAt_window _ _ _ _ (by decide), byteAt_window _ _ _ _ (by decide),
                  SkBuff.ipHdr_daddr, SkBuff.udpHdr_dest, SkBuff.ipHdr_udpOffset]
                rfl
              rcases egressSnat_atomic hkey hsnat with
                ⟨now, found, hlo, hhi, hseen, hwrites, hmatches⟩
              refine ⟨now, found, UInt64.le_trans (Rely.keeps hss₂).clock hlo, hhi,
                hseen.behind hss₂, ?_, fun m hm hfound => ?_⟩
              · rw [EgressWrites, List.filter_append, hsilent, List.nil_append]
                exact hwrites
              · rw [atomicSnat_eq hlookup now skb hm, atomicSnat, hheaders]
                dsimp only
                rw [hload]
                refine (hmatches _ ?_).after (hops m)
                rw [incrementMetric_conntrackMap]
                exact hfound

theorem exists_lookup (key : ConntrackKey) (found : Option ConntrackValue) :
    ∃ ct : ConntrackMap, ct.lookup key = found := by
  cases found with
  | none => exact ⟨∅, rfl⟩
  | some v => exact ⟨Finmap.singleton key v, Finmap.lookup_singleton_eq⟩

omit [Rely R] in
-- There are maps that show what the run has seen.
theorem EgressAtomic.on_maps {ok : Helpers} {skb : SkBuff} {s u : Shared} {ops : List Access}
    {r : Result} (h : EgressAtomic R ok skb s u ops r) :
    ∃ now m, s.clock ≤ now ∧ now ≤ u.clock ∧ m.configMap = s.config ∧
      Seen R s u skb.responseKey (m.conntrackMap.lookup skb.responseKey) ∧
      Matches ops r m (Bpf.dnsGatewayEgress ok now skb m) := by
  rcases h with ⟨now, found, hlo, hhi, hseen, -, hmatches⟩
  rcases exists_lookup skb.responseKey found with ⟨ct, rfl⟩
  exact ⟨now, s.view ct zeroScratch, hlo, hhi, rfl, hseen, hmatches _ ⟨rfl, rfl, rfl, rfl⟩ rfl⟩

omit [Rely R] in
-- A packet is touched only with a fresh entry of its key in sight.
theorem EgressAtomic.cases {ok : Helpers} {skb : SkBuff} {s u : Shared} {ops : List Access}
    {r : Result} (h : EgressAtomic R ok skb s u ops r) :
    r.natRc = none ∧ r.skb = skb ∨
      ∃ now v, s.clock ≤ now ∧ now ≤ u.clock ∧ Seen R s u skb.responseKey (some v) ∧
        now - v.timestampNs ≤ conntrackTtlNs ∧ IsResponse s.config skb ∧
        r.natRc = some (egressNat ok skb v).1 ∧ r.skb = (egressNat ok skb v).2 := by
  rcases h.on_maps with ⟨now, m, hlo, hhi, hconfig, hseen, hm⟩
  rw [← hm.natRc, ← hm.skb, ← hconfig]
  cases (egress_end ok now skb m).2 with
  | early _ _ hskb hnat => exact Or.inl ⟨hnat, hskb⟩
  | miss _ _ _ hskb hnat => exact Or.inl ⟨hnat, hskb⟩
  | stale _ _ _ _ _ hskb hnat => exact Or.inl ⟨hnat, hskb⟩
  | natFailed v hresp hlookup hfresh _ _ hskb hnat =>
      rw [hlookup] at hseen
      exact Or.inr ⟨now, v, hlo, hhi, hseen, UInt64.not_lt.mp hfresh, hresp, hnat, hskb⟩
  | rewritten v hresp hlookup hfresh hrc _ hskb hnat =>
      rw [hlookup] at hseen
      rw [← hrc] at hnat
      exact Or.inr ⟨now, v, hlo, hhi, hseen, UInt64.not_lt.mp hfresh, hresp, hnat, hskb⟩

end DnsGateway.Smp
