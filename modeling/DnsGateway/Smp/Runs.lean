import DnsGateway.Smp.Programs
import DnsGateway.Bpf.Query

/-!
# What a run does whatever the others do

Parts of a program that read nothing that the others change, and what the accesses of a run make of
the maps of an atomic run.
-/

namespace DnsGateway.Smp

open DnsGateway.Reasoning DnsGateway.Bpf

/-! ## What nobody changes -/

/-- While the process is up only the bypass bit of the settings changes, elements and counts are
only added, and the clock does not go back. -/
structure Keeps (s t : Shared) : Prop where
  rules : t.suffixRules = s.suffixRules
  config : { t.config with bypass := s.config.bypass } = s.config
  elems : s.conntrack.elems <+: t.conntrack.elems
  -- Memory that was used for another element stays so.
  cells : ∀ p, t.conntrack.cell p = p → s.conntrack.cell p = p
  metrics : ∀ cpu id, s.metrics cpu id ≤ t.metrics cpu id
  clock : s.clock ≤ t.clock

theorem Keeps.refl (s : Shared) : Keeps s s where
  rules := rfl
  config := rfl
  elems := List.prefix_refl _
  cells := fun _ h => h
  metrics := fun _ _ => le_rfl
  clock := UInt64.le_refl _

theorem Keeps.trans (s t u : Shared) (hst : Keeps s t) (htu : Keeps t u) : Keeps s u where
  rules := htu.rules.trans hst.rules
  config := by
    rw [← hst.config, ← htu.config]
  elems := hst.elems.trans htu.elems
  cells := fun p h => hst.cells p (htu.cells p h)
  metrics := fun cpu id => (hst.metrics cpu id).trans (htu.metrics cpu id)
  clock := UInt64.le_trans hst.clock htu.clock

section Fields

variable {s t : Shared} (h : Keeps s t)

include h

theorem Keeps.settings (b : UInt16) :
    { t.config with bypass := b } = { s.config with bypass := b } := by
  rw [← h.config]

theorem Keeps.corednsIp : t.config.corednsIp = s.config.corednsIp := by
  rw [← h.config]

theorem Keeps.hostResolverIp : t.config.hostResolverIp = s.config.hostResolverIp := by
  rw [← h.config]

theorem Keeps.dnsPort : t.config.dnsPort = s.config.dnsPort := by
  rw [← h.config]

theorem Keeps.defaultAction : t.config.defaultAction = s.config.defaultAction := by
  rw [← h.config]

end Fields

theorem exec_keeps (cpu : Nat) (o : Access) (s : Shared) : Keeps s (s.exec cpu o).2 := by
  cases o with
  | metric id =>
      refine ⟨rfl, rfl, List.prefix_refl _, fun _ h => h, fun cpu' id' => ?_, UInt64.le_refl _⟩
      show s.metrics cpu' id' ≤ Function.update s.metrics cpu _ cpu' id'
      rw [Function.update_apply]
      split
      · rename_i hcpu
        rw [hcpu, Function.update_apply]
        split
        · rename_i hid
          rw [hid]
          exact Nat.le_succ _
        · exact le_rfl
      · exact le_rfl
  | ctUpdate key val =>
      exact ⟨rfl, rfl, List.prefix_append _ _, fun _ h => h, fun _ _ => le_rfl,
        UInt64.le_refl _⟩
  | ctDelete key =>
      exact ⟨rfl, rfl, List.prefix_refl _, fun _ h => h, fun _ _ => le_rfl, UInt64.le_refl _⟩
  | _ => exact Keeps.refl s

/-! ## What the accesses of a run change -/

/-- The metric that an access counts. -/
def Access.counted : Access → Option MetricId
  | .metric id => some id
  | _ => none

/-- What an access leaves of the conntrack entries. -/
def Access.track : Access → ConntrackMap → ConntrackMap
  | .ctUpdate key val, ct => ct.insert key val
  | .ctDelete key, ct => ct.erase key
  | _, ct => ct

/-- An access that writes `conntrack_map`. -/
def Access.tracks : Access → Bool
  | .ctUpdate _ _ | .ctDelete _ => true
  | _ => false

/-- The maps `b` are the maps `a` behind these accesses, but for the scratch buffer. -/
structure Effect (ops : List Access) (a b : Maps) : Prop where
  metrics : b.metricsMap = fun id => a.metricsMap id + (ops.filterMap Access.counted).count id
  conntrack : b.conntrackMap = ops.foldl (fun ct o => o.track ct) a.conntrackMap

theorem Effect.trans {ops₁ ops₂ : List Access} {a b c : Maps} (h₁ : Effect ops₁ a b)
    (h₂ : Effect ops₂ b c) : Effect (ops₁ ++ ops₂) a c where
  metrics := by
    rw [h₂.metrics, h₁.metrics, List.filterMap_append]
    funext id
    rw [List.count_append, Nat.add_assoc]
  conntrack := by rw [h₂.conntrack, h₁.conntrack, List.foldl_append]

theorem Effect.refl (a : Maps) : Effect [] a a := ⟨rfl, rfl⟩

theorem Effect.metric {ok : Helpers} {id : MetricId} (hok : ok (.metricLookup id) = true)
    (a : Maps) : Effect [.metric id] a (a.incrementMetric ok id) where
  metrics := by
    rw [incrementMetric_metricsMap, bump, if_pos hok]
    funext id'
    rw [Function.update_apply, show [Access.metric id].filterMap Access.counted = [id] from rfl,
      List.count_singleton]
    split
    · rename_i hid
      rw [hid, if_pos (beq_self_eq_true id)]
    · rename_i hid
      rw [if_neg (by simpa using Ne.symm hid), Nat.add_zero]
  conntrack := incrementMetric_conntrackMap ok id a

/-- The run with these accesses and this result is the atomic run `o` on the maps `m`. -/
structure Matches (ops : List Access) (r : Result) (m : Maps) (o : Outcome) : Prop where
  effect : Effect ops m o.maps
  skb : o.skb = r.skb
  inserted : o.inserted = r.inserted
  natRc : o.natRc = r.natRc

theorem Matches.after {ops₁ ops₂ : List Access} {r : Result} {a b : Maps} {o : Outcome}
    (h₁ : Effect ops₁ a b) (h₂ : Matches ops₂ r b o) : Matches (ops₁ ++ ops₂) r a o :=
  ⟨h₁.trans h₂.effect, h₂.skb, h₂.inserted, h₂.natRc⟩

/-! ## Parts that read nothing that changes -/

/-- What the others may do during a run, with what the run does itself without writing
`conntrack_map`. -/
class Rely (R : Shared → Shared → Prop) : Prop where
  refl : ∀ s, R s s
  trans : ∀ s t u, R s t → R t u → R s u
  keeps : ∀ {s t}, R s t → Keeps s t
  own : ∀ cpu o s, o.tracks = false → R s (s.exec cpu o).2

instance : Rely Keeps where
  refl := Keeps.refl
  trans := Keeps.trans
  keeps := id
  own := fun cpu o s _ => exec_keeps cpu o s

variable {R : Shared → Shared → Prop} [Rely R] {cpu : Nat} {α β : Type}

theorem runs_keeps {p : Run α} {t u : Shared} {ops : List Access} {a : α}
    (h : Runs (Shared.exec cpu) R p t ops a u) : Keeps t u := by
  induction h with
  | ret hmove => exact Rely.keeps hmove
  | access hmove _ ih =>
      exact ((Rely.keeps hmove).trans _ _ _ (exec_keeps cpu _ _)).trans _ _ _ ih

theorem runs_rely {p : Run α} {t u : Shared} {ops : List Access} {a : α}
    (h : Runs (Shared.exec cpu) R p t ops a u) (hops : ops.filter Access.tracks = []) : R t u := by
  induction h with
  | ret hmove => exact hmove
  | access hmove _ ih =>
      rename_i o k m m₁ m' ops' a' _
      cases ho : o.tracks with
      | true =>
          rw [List.filter_cons_of_pos ho] at hops
          cases hops
      | false =>
          rw [List.filter_cons_of_neg (Bool.eq_false_iff.mp ho)] at hops
          exact Rely.trans _ _ _ (Rely.trans _ _ _ hmove (Rely.own cpu o m₁ ho)) (ih hops)

/-- Started behind `s`, the program returns `a`, whatever the others do; its accesses change the
maps by `g`, and `w` are those that write `conntrack_map`. -/
def Does (R : Shared → Shared → Prop) (cpu : Nat) (s : Shared) (p : Run α) (a : α)
    (g : Maps → Maps) (w : List Access) : Prop :=
  ∀ t ops b u, Keeps s t → Runs (Shared.exec cpu) R p t ops b u →
    b = a ∧ (∀ m, Effect ops m (g m)) ∧ ops.filter Access.tracks = w

omit [Rely R] in
theorem does_pure (s : Shared) (a : α) : Does R cpu s (pure a) a id [] := by
  intro t ops b u hst h
  rcases runs_pure.mp h with ⟨rfl, rfl, -⟩
  exact ⟨rfl, Effect.refl, rfl⟩

theorem Does.bind {s : Shared} {p : Run α} {f : α → Run β} {a : α} {b : β} {g g' : Maps → Maps}
    {w w' : List Access} (hp : Does R cpu s p a g w) (hf : Does R cpu s (f a) b g' w') :
    Does R cpu s (p >>= f) b (fun m => g' (g m)) (w ++ w') := by
  intro t ops b' u hst h
  rcases (runs_bind Rely.refl Rely.trans).mp h with ⟨a', t₁, ops₁, ops₂, h₁, h₂, rfl⟩
  rcases hp t ops₁ a' t₁ hst h₁ with ⟨rfl, heffect₁, hw₁⟩
  rcases hf t₁ ops₂ b' u (hst.trans _ _ _ (runs_keeps h₁)) h₂ with ⟨rfl, heffect₂, hw₂⟩
  exact ⟨rfl, fun m => (heffect₁ m).trans (heffect₂ (g m)), by rw [List.filter_append, hw₁, hw₂]⟩

theorem Does.seq {s : Shared} {p : Run Unit} {q : Run β} {b : β} {g g' : Maps → Maps}
    {w w' : List Access} (hp : Does R cpu s p () g w) (hq : Does R cpu s q b g' w') :
    Does R cpu s (p >>= fun _ => q) b (fun m => g' (g m)) (w ++ w') :=
  hp.bind (f := fun _ => q) hq

theorem Does.last {s : Shared} {p : Run Unit} {g : Maps → Maps} {w : List Access}
    (hp : Does R cpu s p () g w) (b : β) : Does R cpu s (p >>= fun _ => pure b) b g w := by
  have h := hp.seq (does_pure s b)
  rw [List.append_nil] at h
  exact h

theorem Does.perform {s : Shared} {o : Access} {a : o.Answer} {g : Maps → Maps}
    (heffect : ∀ m, Effect [o] m (g m)) (ha : ∀ t, Keeps s t → (Shared.exec cpu o t).1 = a) :
    Does R cpu s (perform o) a g ([o].filter Access.tracks) := by
  intro t ops b u hst h
  rcases runs_access.mp h with ⟨t₁, ops', htt, rfl, hret⟩
  rcases runs_pure.mp hret with ⟨rfl, rfl, -⟩
  exact ⟨ha t₁ (hst.trans _ _ _ (Rely.keeps htt)), heffect, rfl⟩

theorem does_incrementMetric (ok : Helpers) (s : Shared) (id : MetricId) :
    Does R cpu s (incrementMetric ok id) () (fun m => m.incrementMetric ok id) [] := by
  unfold incrementMetric
  split
  · rename_i hok
    exact Does.perform (Effect.metric hok) fun _ _ => rfl
  · rename_i hok
    have hsame : (fun m : Maps => m.incrementMetric ok id) = fun m => m := by
      funext m
      exact if_neg hok
    rw [hsame]
    exact does_pure s ()

theorem does_countNatFailure (ok : Helpers) (s : Shared) (rc : Int) :
    Does R cpu s (countNatFailure ok rc) () (fun m => m.countNatFailure ok rc) [] := by
  by_cases hrc : rc = -2
  · simp only [countNatFailure, Maps.countNatFailure, if_pos hrc]
    exact (does_incrementMetric ok s .natError).bind (does_incrementMetric ok s .natRevertFail)
  · simp only [countNatFailure, Maps.countNatFailure, if_neg hrc]
    exact (does_incrementMetric ok s .natError).bind (does_pure s ())

/-- The access of `bpf_map_delete_elem`. -/
def deleteOps (ok : Helpers) (key : ConntrackKey) : List Access :=
  if ok .ctDelete then [.ctDelete key] else []

theorem does_conntrackDelete (ok : Helpers) (s : Shared) (key : ConntrackKey) :
    Does R cpu s (conntrackDelete ok key) () (fun m => m.conntrackDelete ok key)
      (deleteOps ok key) := by
  unfold conntrackDelete Maps.conntrackDelete deleteOps
  split
  · exact Does.perform (fun _ => ⟨rfl, rfl⟩) fun _ _ => rfl
  · exact does_pure s ()

theorem does_updateEntry (s : Shared) (key : ConntrackKey) (val : ConntrackValue) :
    Does R cpu s (updateEntry key val) ()
      (fun m => { m with conntrackMap := m.conntrackMap.insert key val }) [.ctUpdate key val] :=
  Does.perform (fun _ => ⟨rfl, rfl⟩) fun _ _ => rfl

/-- It returns `a` and changes nothing. -/
abbrev Yields (R : Shared → Shared → Prop) (cpu : Nat) (s : Shared) (p : Run α) (a : α) : Prop :=
  Does R cpu s p a id []

theorem yields_corednsIp (s : Shared) : Yields R cpu s cfgCorednsIp s.config.corednsIp :=
  Does.perform (fun _ => ⟨rfl, rfl⟩) fun _ h => h.corednsIp

theorem yields_hostResolverIp (s : Shared) :
    Yields R cpu s cfgHostResolverIp s.config.hostResolverIp :=
  Does.perform (fun _ => ⟨rfl, rfl⟩) fun _ h => h.hostResolverIp

theorem yields_dnsPort (s : Shared) : Yields R cpu s cfgDnsPort s.config.dnsPort :=
  Does.perform (fun _ => ⟨rfl, rfl⟩) fun _ h => h.dnsPort

theorem yields_defaultAction (s : Shared) :
    Yields R cpu s cfgDefaultAction s.config.defaultAction :=
  Does.perform (fun _ => ⟨rfl, rfl⟩) fun _ h => h.defaultAction

theorem yields_ruleLookup (ok : Helpers) (s : Shared) (i : Nat) (lookup : NameBuf) :
    Yields R cpu s (ruleLookup ok i lookup) (Bpf.ruleLookup ok s.suffixRules i lookup) := by
  unfold ruleLookup Bpf.ruleLookup
  split
  · apply Does.perform (fun _ => ⟨rfl, rfl⟩)
    intro t hst
    show t.suffixRules.lookup ⟨lookup⟩ = _
    rw [hst.rules]
  · exact does_pure s none

theorem guard_bind {p : Prop} [Decidable p] (x : Option α) :
    ((guard p : Option Unit).bind fun _ => x) = if p then x else none := by
  by_cases hp : p
  · rw [if_pos hp, guard, if_pos hp]
    rfl
  · rw [if_neg hp, guard, if_neg hp]
    rfl

omit [Rely R] in
theorem Yields.guard {s : Shared} {p : Prop} [Decidable p] [Decidable (¬ p)] {x : Run (Option α)}
    {a : Option α} (h : Yields R cpu s x a) :
    Yields R cpu s (if ¬ p then pure none else x) (if p then a else none) := by
  by_cases hp : p
  · rw [if_neg (not_not.mpr hp), if_pos hp]
    exact h
  · rw [if_pos hp, if_neg hp]
    exact does_pure s none

omit [Rely R] in
theorem Yields.refuse {s : Shared} {p : Prop} [Decidable p] [Decidable (¬ p)] {x : Run (Option α)}
    {a : Option α} (h : Yields R cpu s x a) :
    Yields R cpu s (if p then pure none else x) (if ¬ p then a else none) := by
  by_cases hp : p
  · rw [if_pos hp, if_neg (not_not.mpr hp)]
    exact does_pure s none
  · rw [if_neg hp, if_pos hp]
    exact h

theorem yields_parseUdp (ok : Helpers) (s : Shared) (skb : SkBuff) {addrRun : IpHdr → Run Bool}
    {portRun : UdpHdr → Run Bool} {addrOk : IpHdr → Bool} {portOk : UdpHdr → Bool}
    (haddr : ∀ iph, Yields R cpu s (addrRun iph) (addrOk iph))
    (hport : ∀ udp, Yields R cpu s (portRun udp) (portOk udp)) :
    Yields R cpu s (parseUdp ok skb addrRun portRun) (Bpf.parseUdp ok skb addrOk portOk) := by
  unfold parseUdp Bpf.parseUdp
  cases skbLoadBytes (ok .loadEth) skb 0 14 with
  | none => exact does_pure s none
  | some eth =>
      simp only [Option.bind_eq_bind, Option.bind_some, guard_bind]
      apply Yields.guard
      cases skbLoadBytes (ok .loadIp) skb ethHlen 20 with
      | none => exact does_pure s none
      | some ip =>
          apply Yields.guard
          apply Does.bind (haddr _)
          apply Yields.guard
          apply Yields.refuse
          apply Yields.guard
          cases skbLoadBytes (ok .loadUdp) skb (IpHdr.ofBytes ip).udpOffset 8 with
          | none => exact does_pure s none
          | some u =>
              apply Does.bind (hport _)
              apply Yields.guard
              exact does_pure s _

-- (Stated for the pair, as `matchSuffix_step` is.)
theorem yields_matchSuffix (ok : Helpers) (s : Shared) (qname : NameBuf) (qnameTotalLen : Nat)
    (labelOffsets : List Nat) (fuel i : Nat) (lookup : NameBuf) {r : Option UInt32 × NameBuf}
    (hr : Bpf.matchSuffix ok s.suffixRules qname qnameTotalLen labelOffsets fuel i lookup = r) :
    Yields R cpu s (matchSuffix ok qname qnameTotalLen labelOffsets fuel i) r.1 := by
  induction fuel generalizing i lookup with
  | zero =>
      rw [← hr]
      exact does_pure s none
  | succ fuel ih =>
      rw [Bpf.matchSuffix] at hr
      rw [matchSuffix]
      split at hr
      · rename_i hi
        rw [if_pos hi, ← hr]
        exact does_pure s none
      · rename_i hi
        rw [if_neg hi]
        split at hr
        · rename_i hmax
          rw [if_pos hmax, ← hr]
          exact does_pure s none
        · rename_i hmax
          rw [if_neg hmax]
          dsimp only at hr ⊢
          generalize u32Sub qnameTotalLen (labelOffsets.getD i 0) = suffixLen at hr ⊢
          split at hr
          · rename_i hlen
            rw [if_pos hlen, ← hr]
            exact does_pure s none
          · rename_i hlen
            rw [if_neg hlen]
            apply Does.bind (yields_ruleLookup ok s i _)
            generalize Bpf.ruleLookup ok s.suffixRules i _ = val at hr ⊢
            cases val with
            | none => exact ih (i + 1) _ hr
            | some val =>
                rw [← hr]
                exact does_pure s _

omit [Rely R] in
theorem Does.matches {s t u : Shared} {p : Run Result} {a r : Result} {g : Maps → Maps}
    {w ops : List Access} (hp : Does R cpu s p a g w) (hst : Keeps s t)
    (h : Runs (Shared.exec cpu) R p t ops r u) (m : Maps) :
    Matches ops r m { verdict := tcActOk, skb := a.skb, maps := g m, inserted := a.inserted,
                      natRc := a.natRc } := by
  rcases hp t ops r u hst h with ⟨rfl, heffect, -⟩
  exact ⟨heffect m, rfl, rfl, rfl⟩

/-- The settings but for the bypass bit. -/
structure SameSettings (cfg cfg' : GatewayConfig) : Prop where
  corednsIp : cfg.corednsIp = cfg'.corednsIp
  hostResolverIp : cfg.hostResolverIp = cfg'.hostResolverIp
  dnsPort : cfg.dnsPort = cfg'.dnsPort
  defaultAction : cfg.defaultAction = cfg'.defaultAction

/-- The scratch slot of a CPU that has run no program. -/
def zeroScratch : ScratchBuf where
  qname := List.Vector.replicate maxDnsNameLen 0
  lookup := List.Vector.replicate maxDnsNameLen 0

/-- Maps that show what `t` holds, with these conntrack entries. -/
def Shared.view (t : Shared) (ct : ConntrackMap) (scratch : ScratchBuf) : Maps where
  suffixRules := t.suffixRules
  configMap := t.config
  conntrackMap := ct
  metricsMap := fun _ => 0
  scratchMap := scratch

end DnsGateway.Smp
