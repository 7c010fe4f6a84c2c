import DnsGateway.Smp.Machine

/-!
# Counters of programs under way

Each CPU counts in its own slots of `metrics_map`.  On every way through a program the counts stay
in order access by access, so they are in order at every moment.
-/

namespace DnsGateway.Smp

open DnsGateway.Reasoning DnsGateway.Bpf

/-- The relations between the counters that hold at every moment. -/
@[mk_iff]
structure Ordered (c : MetricId → Nat) : Prop where
  queries : c .bypassActive + c .dnsQueries ≤ c .totalPackets
  lookups : c .suffixMatch + c .suffixNoMatch + c .parseError ≤ c .dnsQueries
  outcomes : c .redirected + c .clusterResolved ≤ c .suffixMatch + c .suffixNoMatch
  responses : c .egressSnat + c .egressConntrackMiss ≤ c .egressTotal
  reverts : c .natRevertFail ≤ c .natError
  -- A run fails in the NAT at most once, and has then no other outcome.
  failures : c .redirected + c .clusterResolved + c .egressSnat + c .egressConntrackMiss +
    c .natError ≤ c .suffixMatch + c .suffixNoMatch + c .egressTotal

instance (c : MetricId → Nat) : Decidable (Ordered c) := decidable_of_iff' _ (ordered_iff c)

theorem Ordered.add {c d : MetricId → Nat} (hc : Ordered c) (hd : Ordered d) :
    Ordered fun id => c id + d id := by
  rcases hc with ⟨h₁, h₂, h₃, h₄, h₅, h₆⟩
  rcases hd with ⟨k₁, k₂, k₃, k₄, k₅, k₆⟩
  constructor <;> omega

/-- The counter that a program counts first. -/
def Job.first : Job → MetricId
  | .ingress _ _ _ => .totalPackets
  | .egress _ _ => .egressTotal

/-- Counted one after the other these keep the order, and `first` is the one of `totalPackets` and
`egressTotal` among them, once. -/
def InOrder (first : MetricId) (ids : List MetricId) : Prop :=
  (∀ l ∈ ids.inits, Ordered fun id => l.count id) ∧
    ∀ id ∈ [MetricId.totalPackets, .egressTotal], ids.count id = if id = first then 1 else 0

instance (first : MetricId) (ids : List MetricId) : Decidable (InOrder first ids) :=
  inferInstanceAs (Decidable (_ ∧ _))

/-! ## What a program counts -/

variable {α β : Type}

/-- What is counted on any way through `p` satisfies `L`. -/
structure Counts (p : Run α) (L : List MetricId → Prop) : Prop where
  all : ∀ ops a, Path p ops a → L (ops.filterMap Access.counted)

theorem counts_pure {L : List MetricId → Prop} (a : α) (h : L []) : Counts (pure a) L := by
  constructor
  intro ops b hpath
  rcases path_pure.mp hpath with ⟨rfl, -⟩
  exact h

/-- `p` counts nothing. -/
abbrev Silent (p : Run α) : Prop := Counts p (· = [])

theorem Counts.bind {p : Run α} {f : α → Run β} {L : List MetricId → Prop}
    (h : Counts p fun ids => ∀ a, Counts (f a) fun ids' => L (ids ++ ids')) :
    Counts (p >>= f) L := by
  constructor
  intro ops b hpath
  rcases path_bind.mp hpath with ⟨a, ops₁, ops₂, hp, hf, rfl⟩
  rw [List.filterMap_append]
  exact (h.all ops₁ a hp a).all ops₂ b hf

theorem Silent.bind {p : Run α} {f : α → Run β} {L : List MetricId → Prop} (hp : Silent p)
    (hf : ∀ a, Counts (f a) L) : Counts (p >>= f) L := by
  constructor
  intro ops b hpath
  rcases path_bind.mp hpath with ⟨a, ops₁, ops₂, h₁, h₂, rfl⟩
  rw [List.filterMap_append, hp.all ops₁ a h₁]
  exact (hf a).all ops₂ b h₂

theorem silent_perform {o : Access} (h : o.counted = none) : Silent (perform o) := by
  constructor
  intro ops a hpath
  cases hpath with
  | access x hk =>
      rcases path_pure.mp hk with ⟨rfl, -⟩
      rw [List.filterMap_cons_none h]
      rfl

theorem counts_incrementMetric {ok : Helpers} {id : MetricId} (hok : ok (.metricLookup id) = true)
    {f : Unit → Run β} {L : List MetricId → Prop} (hf : Counts (f ()) fun ids => L (id :: ids)) :
    Counts (incrementMetric ok id >>= f) L := by
  unfold incrementMetric
  rw [if_pos hok]
  constructor
  intro ops b hpath
  rcases path_bind.mp hpath with ⟨a, ops₁, ops₂, h₁, h₂, rfl⟩
  cases h₁ with
  | access x hk =>
      rcases path_pure.mp hk with ⟨rfl, -⟩
      exact hf.all ops₂ b h₂

theorem Counts.ite {p : Prop} [Decidable p] {x y : Run α} {L : List MetricId → Prop}
    (hx : Counts x L) (hy : Counts y L) : Counts (if p then x else y) L := by
  split
  · exact hx
  · exact hy

theorem counts_countNatFailure {ok : Helpers} (hok : ∀ id, ok (.metricLookup id) = true) {rc : Int}
    {f : Unit → Run β} {L : List MetricId → Prop}
    (hf : ∀ ids ∈ [[MetricId.natError], [.natError, .natRevertFail]],
      Counts (f ()) fun ids' => L (ids ++ ids')) :
    Counts (countNatFailure ok rc >>= f) L := by
  apply Counts.bind
  apply counts_incrementMetric (hok _)
  split
  · unfold incrementMetric
    rw [if_pos (hok _)]
    constructor
    intro ops a hpath
    cases hpath with
    | access x hk =>
        rcases path_pure.mp hk with ⟨rfl, -⟩
        exact fun a => hf _ (by decide)
  · exact counts_pure () fun a => hf _ (by decide)

theorem silent_conntrackDelete (ok : Helpers) (key : ConntrackKey) :
    Silent (conntrackDelete ok key) :=
  Counts.ite (silent_perform rfl) (counts_pure () rfl)

theorem silent_conntrackLookup (ok : Helpers) (key : ConntrackKey) :
    Silent (conntrackLookup ok key) :=
  Counts.ite (silent_perform rfl) (counts_pure none rfl)

theorem silent_ruleLookup (ok : Helpers) (i : Nat) (lookup : NameBuf) :
    Silent (ruleLookup ok i lookup) :=
  Counts.ite (silent_perform rfl) (counts_pure none rfl)

theorem silent_parseUdp (ok : Helpers) (skb : SkBuff) {addrOk : IpHdr → Run Bool}
    {portOk : UdpHdr → Run Bool} (haddr : ∀ iph, Silent (addrOk iph))
    (hport : ∀ udp, Silent (portOk udp)) : Silent (parseUdp ok skb addrOk portOk) := by
  have hnone : Silent (pure none : Run (Option (IpHdr × UdpHdr))) := counts_pure none rfl
  unfold parseUdp
  cases skbLoadBytes (ok .loadEth) skb 0 14 with
  | none => exact hnone
  | some eth =>
      apply Counts.ite hnone
      cases skbLoadBytes (ok .loadIp) skb ethHlen 20 with
      | none => exact hnone
      | some ip =>
          apply Counts.ite hnone
          apply Silent.bind (haddr _)
          intro isOurs
          apply Counts.ite hnone
          apply Counts.ite hnone
          apply Counts.ite hnone
          cases skbLoadBytes (ok .loadUdp) skb (IpHdr.ofBytes ip).udpOffset 8 with
          | none => exact hnone
          | some u =>
              apply Silent.bind (hport _)
              exact fun isDns => Counts.ite hnone (counts_pure _ rfl)

theorem silent_matchSuffix (ok : Helpers) (qname : NameBuf) (qnameTotalLen : Nat)
    (labelOffsets : List Nat) (fuel i : Nat) :
    Silent (matchSuffix ok qname qnameTotalLen labelOffsets fuel i) := by
  have hnone : Silent (pure none : Run (Option UInt32)) := counts_pure none rfl
  induction fuel generalizing i with
  | zero => exact hnone
  | succ fuel ih =>
      unfold matchSuffix
      apply Counts.ite hnone
      apply Counts.ite hnone
      apply Counts.ite hnone
      apply Silent.bind (silent_ruleLookup ok i _)
      intro val
      cases val with
      | none => exact ih (i + 1)
      | some val => exact counts_pure _ rfl

section Programs

variable {ok : Helpers} (hok : ∀ id, ok (.metricLookup id) = true)

include hok

theorem counts_ingressRedirect (iph : IpHdr) (udp : UdpHdr) (txid : UInt16) (skb : SkBuff)
    {id : MetricId} (hid : id ∈ [MetricId.suffixMatch, .suffixNoMatch]) :
    Counts (ingressRedirect ok iph udp txid skb) fun ids =>
      InOrder .totalPackets (.totalPackets :: .dnsQueries :: id :: ids) := by
  unfold ingressRedirect
  dsimp only
  apply Silent.bind (silent_perform rfl)
  intro corednsIp
  apply Silent.bind (silent_perform rfl)
  intro now
  split
  · apply Silent.bind (silent_perform rfl)
    intro _
    apply Silent.bind (silent_perform rfl)
    intro hostResolverIp
    split
    · apply counts_countNatFailure hok
      intro ids hids
      apply Silent.bind (silent_conntrackDelete ok _)
      intro _
      apply counts_pure
      revert ids id
      decide
    · apply counts_incrementMetric (hok _)
      apply counts_pure
      revert id
      decide
  · apply counts_pure
    revert id
    decide

theorem counts_ingressResolve (iph : IpHdr) (udp : UdpHdr) (txid : UInt16) (qname : NameBuf)
    (labelOffsets : List Nat) (qnameTotalLen : Nat) (skb : SkBuff) :
    Counts (ingressResolve ok iph udp txid qname labelOffsets qnameTotalLen skb) fun ids =>
      InOrder .totalPackets (.totalPackets :: .dnsQueries :: ids) := by
  unfold ingressResolve
  apply Silent.bind (silent_perform rfl)
  intro defaultAction
  apply Silent.bind (silent_matchSuffix ..)
  intro hit
  have hid : (if hit.isSome then .suffixMatch else .suffixNoMatch) ∈
      [MetricId.suffixMatch, .suffixNoMatch] := by
    split
    · exact List.mem_cons_self
    · exact List.mem_cons_of_mem _ List.mem_cons_self
  generalize (if hit.isSome then MetricId.suffixMatch else .suffixNoMatch) = id at hid ⊢
  apply counts_incrementMetric (hok _)
  split
  · apply counts_incrementMetric (hok _)
    apply counts_pure
    revert id
    decide
  · exact counts_ingressRedirect hok iph udp txid skb hid

theorem counts_ingressQuery (iph : IpHdr) (udp : UdpHdr) (scratch : ScratchBuf) (skb : SkBuff) :
    Counts (ingressQuery ok iph udp scratch skb) fun ids =>
      InOrder .totalPackets (.totalPackets :: .dnsQueries :: ids) := by
  have hpass : Counts (pure { skb := skb } : Run Result) fun ids =>
      InOrder .totalPackets (.totalPackets :: .dnsQueries :: ids) := counts_pure _ (by decide)
  have herror : Counts (incrementMetric ok .parseError >>= fun _ => pure { skb := skb : Result })
      fun ids => InOrder .totalPackets (.totalPackets :: .dnsQueries :: ids) :=
    counts_incrementMetric (hok _) (counts_pure _ (by decide))
  unfold ingressQuery
  dsimp only
  split
  · exact hpass
  · apply Counts.ite hpass
    apply Counts.ite herror
    refine Counts.ite ?_ hpass
    split
    · exact hpass
    · split
      · exact herror
      · apply Counts.ite hpass
        apply Counts.ite hpass
        exact counts_ingressResolve hok ..

theorem counts_ingress (scratch : ScratchBuf) (skb : SkBuff) :
    Counts (dnsGatewayIngress ok scratch skb) (InOrder .totalPackets) := by
  unfold dnsGatewayIngress
  apply counts_incrementMetric (hok _)
  refine Counts.ite ?_ (counts_pure _ (by decide))
  apply Silent.bind (silent_perform rfl)
  intro bypass
  split
  · exact counts_incrementMetric (hok _) (counts_pure _ (by decide))
  · unfold ingressHeaders
    apply Silent.bind
    · apply silent_parseUdp
      · exact fun iph => Silent.bind (silent_perform rfl) fun _ => counts_pure _ rfl
      · exact fun udp => Silent.bind (silent_perform rfl) fun _ => counts_pure _ rfl
    · intro headers
      cases headers with
      | none => exact counts_pure _ (by decide)
      | some headers =>
          apply counts_incrementMetric (hok _)
          exact counts_ingressQuery hok ..

theorem counts_egressSnat (iph : IpHdr) (udp : UdpHdr) (txid : UInt16) (skb : SkBuff) :
    Counts (egressSnat ok iph udp txid skb) fun ids =>
      InOrder .egressTotal (.egressTotal :: ids) := by
  unfold egressSnat
  apply Silent.bind (silent_conntrackLookup ok _)
  intro ctVal
  cases ctVal with
  | none => exact counts_incrementMetric (hok _) (counts_pure _ (by decide))
  | some p =>
      apply Silent.bind (silent_perform rfl)
      intro now
      apply Silent.bind (silent_perform rfl)
      intro timestampNs
      split
      · apply Silent.bind (silent_conntrackDelete ok _)
        exact fun _ => counts_incrementMetric (hok _) (counts_pure _ (by decide))
      · apply Silent.bind (silent_perform rfl)
        intro corednsIp
        dsimp only
        split
        · apply counts_countNatFailure hok
          intro ids hids
          apply counts_pure
          revert ids
          decide
        · apply Silent.bind (silent_conntrackDelete ok _)
          exact fun _ => counts_incrementMetric (hok _) (counts_pure _ (by decide))

theorem counts_egress (skb : SkBuff) :
    Counts (dnsGatewayEgress ok skb) (InOrder .egressTotal) := by
  have hpass : Counts (pure { skb := skb } : Run Result) fun ids =>
      InOrder .egressTotal (.egressTotal :: ids) := counts_pure _ (by decide)
  unfold dnsGatewayEgress
  apply counts_incrementMetric (hok _)
  refine Counts.ite ?_ hpass
  apply Silent.bind
  · apply silent_parseUdp
    · exact fun iph => Silent.bind (silent_perform rfl) fun _ => counts_pure _ rfl
    · exact fun udp => Silent.bind (silent_perform rfl) fun _ => counts_pure _ rfl
  · intro headers
    cases headers with
    | none => exact hpass
    | some headers =>
        dsimp only
        split
        · exact hpass
        · exact counts_egressSnat hok ..

end Programs

/-- The lookups in `metrics_map` go through: its indices are in range. -/
def Job.MetricsOk : Job → Prop
  | .ingress ok _ _ => ∀ id, ok (.metricLookup id) = true
  | .egress ok _ => ∀ id, ok (.metricLookup id) = true

theorem counts_job {job : Job} (hok : job.MetricsOk) : Counts job.prog (InOrder job.first) := by
  cases job with
  | ingress ok scratch skb => exact counts_ingress hok scratch skb
  | egress ok skb => exact counts_egress hok skb

/-! ## Whole runs -/

theorem exec_metrics (cpu : Nat) (o : Access) (s : Shared) (id : MetricId) :
    (s.exec cpu o).2.metrics cpu id =
      s.metrics cpu id + ([o].filterMap Access.counted).count id := by
  cases o with
  | metric id' =>
      show Function.update s.metrics cpu _ cpu id = _ + [id'].count id
      rw [Function.update_self, Function.update_apply, List.count_singleton]
      by_cases hid : id = id'
      · rw [if_pos hid, hid, if_pos (beq_self_eq_true id')]
      · rw [if_neg hid, if_neg (by simpa using Ne.symm hid), Nat.add_zero]
  | _ => rfl

theorem exec_metrics_other {cpu i : Nat} (hne : i ≠ cpu) (o : Access) (s : Shared) :
    (s.exec cpu o).2.metrics i = s.metrics i := by
  cases o with
  | metric id => exact Function.update_of_ne hne _ _
  | _ => rfl

theorem outside_metrics {e : Outside} {s t : Shared} (h : s.outside e = some t) :
    t.metrics = s.metrics := by
  cases e with
  | setBypass lookupOk updateOk on =>
      cases h
      rfl
  | tick now =>
      simp only [Shared.outside] at h
      split at h
      · cases h
        rfl
      · cases h
  | evict key =>
      cases h
      rfl
  | recycle p q =>
      rcases Option.map_eq_some_iff.mp h with ⟨ct, -, rfl⟩
      rfl

abbrev CpuThread := Thread Access Access.Answer Result Shared Job

/-- What the program on a CPU has counted up to now. -/
def countedBy : Option CpuThread → MetricId → Nat
  | none, _ => 0
  | some t, id => (t.made.filterMap Access.counted).count id

/-- Whether the program on a CPU is one that counts `id` first. -/
def startedBy : Option CpuThread → MetricId → Nat
  | none, _ => 0
  | some t, id => if id = t.job.first then 1 else 0

/-- Starts such a program on CPU `i`. -/
def starts (i : Nat) (id : MetricId) : Act → Bool
  | .spawn j job => j == i && id == job.first
  | _ => false

/-- CPU `i`, with the program `t` on it, has counted `c`; of that it has counted `f` in finished
runs. -/
structure Tallied (s₀ : Shared) (i : Nat) (c : MetricId → Nat) (t : Option CpuThread)
    (past : List Act) (f : MetricId → Nat) : Prop where
  ordered : Ordered f
  metrics : ∀ id, c id = f id + countedBy t id
  firsts : ∀ id ∈ [MetricId.totalPackets, .egressTotal],
    f id + startedBy t id = s₀.metrics i id + past.countP (starts i id)

section Tallied

variable {s₀ : Shared} {i : Nat} {c d : Cpus} {past : List Act} {a : Act}
  {counts f : MetricId → Nat}

-- An action that starts nothing on the CPU.
theorem Tallied.after {t : Option CpuThread} (h : Tallied s₀ i counts t past f)
    (hstarts : ∀ id, starts i id a = false) : Tallied s₀ i counts t (past ++ [a]) f := by
  refine ⟨h.ordered, h.metrics, fun id hid => ?_⟩
  rw [List.countP_append, List.countP_singleton, hstarts id]
  exact h.firsts id hid

theorem Tallied.spawn (h : Tallied s₀ i counts none past f) (job : Job) (origin : Shared) :
    Tallied s₀ i counts (some ⟨job, job.prog, origin, []⟩) (past ++ [.spawn i job]) f := by
  refine ⟨h.ordered, h.metrics, fun id hid => ?_⟩
  have hold := h.firsts id hid
  rw [startedBy, Nat.add_zero] at hold
  rw [startedBy, List.countP_append, List.countP_singleton, starts, beq_self_eq_true,
    Bool.true_and, hold, Nat.add_assoc]
  simp only [beq_iff_eq]

theorem Tallied.access {job : Job} {o : Access} {p q : Run Result} {origin : Shared}
    {made : List Access} (h : Tallied s₀ i counts (some ⟨job, p, origin, made⟩) past f) :
    Tallied s₀ i (fun id => counts id + ([o].filterMap Access.counted).count id)
      (some ⟨job, q, origin, made ++ [o]⟩) past f := by
  refine ⟨h.ordered, fun id => ?_, h.firsts⟩
  rw [h.metrics id, countedBy, countedBy, List.filterMap_append, List.count_append, Nat.add_assoc]

theorem Tallied.finish {job : Job} {p : Run Result} {origin : Shared} {made : List Access}
    (h : Tallied s₀ i counts (some ⟨job, p, origin, made⟩) past f)
    (hmade : InOrder job.first (made.filterMap Access.counted)) :
    Tallied s₀ i counts none past fun id => f id + (made.filterMap Access.counted).count id := by
  refine ⟨h.ordered.add (hmade.1 _ ((List.mem_inits _ _).mpr (List.prefix_refl _))), h.metrics,
    fun id hid => ?_⟩
  have hold := h.firsts id hid
  rw [startedBy, ← hmade.2 id hid] at hold
  exact hold

theorem Tallied.step (h : Tallied s₀ i (c.mem.metrics i) (c.threads i) past f)
    (hreached : Reached s₀ c past) (hok : ∀ t, c.threads i = some t → t.job.MetricsOk)
    (hstep : CpusStep c a d) :
    ∃ f', Tallied s₀ i (d.mem.metrics i) (d.threads i) (past ++ [a]) f' := by
  cases hstep with
  | spawn i' job hfree =>
      dsimp only
      by_cases hi : i' = i
      · subst hi
        rw [hfree] at h
        rw [Function.update_self]
        exact ⟨f, h.spawn job c.mem⟩
      · rw [Function.update_of_ne (Ne.symm hi)]
        refine ⟨f, h.after fun id => ?_⟩
        rw [starts, beq_false_of_ne hi, Bool.false_and]
  | access i' job o k origin made ht =>
      dsimp only
      by_cases hi : i' = i
      · subst hi
        rw [ht] at h
        rw [Function.update_self, funext fun id => exec_metrics i' o c.mem id]
        exact ⟨f, h.access.after fun _ => rfl⟩
      · rw [Function.update_of_ne (Ne.symm hi), exec_metrics_other (Ne.symm hi)]
        exact ⟨f, h.after fun _ => rfl⟩
  | finish i' job r origin made ht =>
      dsimp only
      by_cases hi : i' = i
      · subst hi
        have hruns := (hreached.tracked i' _ ht).finished Keeps.refl Keeps.trans
        have hmade := (counts_job (hok _ ht)).all _ _ hruns.path
        rw [ht] at h
        rw [Function.update_self]
        exact ⟨_, (h.finish hmade).after fun _ => rfl⟩
      · rw [Function.update_of_ne (Ne.symm hi)]
        exact ⟨f, h.after fun _ => rfl⟩
  | env e m he =>
      dsimp only
      rw [outside_metrics he]
      exact ⟨f, h.after fun _ => rfl⟩

end Tallied

/-- What CPU `i` counts, after the actions `past` from `s₀`. -/
structure Counting (s₀ : Shared) (i : Nat) (c : Cpus) (past : List Act) : Prop
    extends Reached s₀ c past where
  metricsOk : ∀ t, c.threads i = some t → t.job.MetricsOk
  tallied : ∃ f, Tallied s₀ i (c.mem.metrics i) (c.threads i) past f

theorem Counting.step {s₀ : Shared} {i : Nat} {c d : Cpus} {past : List Act} {a : Act}
    (h : Counting s₀ i c past) (hok : ∀ job, a = .spawn i job → job.MetricsOk)
    (hstep : CpusStep c a d) : Counting s₀ i d (past ++ [a]) := by
  rcases h.tallied with ⟨f, htallied⟩
  refine ⟨h.toReached.step hstep, fun t ht => ?_, htallied.step h.toReached h.metricsOk hstep⟩
  rcases hstep.thread ht with ⟨ha, -, -⟩ | ⟨t', ht', hjob, -, -, -⟩
  · exact hok t.job ha
  · rw [← hjob]
    exact h.metricsOk t' ht'

theorem run_counting {s₀ : Shared} {i : Nat} (h₀ : Ordered (s₀.metrics i)) {acts : List Act}
    (hok : ∀ job, .spawn i job ∈ acts → job.MetricsOk) {c : Cpus}
    (hrun : (Cpus.start s₀).run acts = some c) : Counting s₀ i c acts := by
  have hstart : Counting s₀ i (Cpus.start s₀) [] := by
    refine ⟨reached_start s₀, fun t ht => ?_, s₀.metrics i, h₀, fun id => rfl, fun id _ => rfl⟩
    cases ht
  refine foldlM_history_invariant_of
    (fun c past a d ha hnext h => h.step ha (machine_next_step hnext)) hstart hrun ?_
  intro a ha job hjob
  rw [hjob] at ha
  exact hok job ha

-- What a program has counted is the front of what it counts to its end.
theorem Counting.countedBy_ordered {s₀ : Shared} {i : Nat} {c : Cpus} {past : List Act}
    (h : Counting s₀ i c past) : Ordered (countedBy (c.threads i)) := by
  cases ht : c.threads i with
  | none => exact (by decide : Ordered fun _ => 0)
  | some t =>
      have hruns := (h.tracked i t ht).runs Keeps.refl Keeps.trans (runs_run Keeps.refl _ _)
      apply ((counts_job (h.metricsOk t ht)).all _ _ hruns.path).1
      rw [List.mem_inits, List.filterMap_append]
      exact List.prefix_append _ _

theorem Counting.ordered {s₀ : Shared} {i : Nat} {c : Cpus} {past : List Act}
    (h : Counting s₀ i c past) : Ordered (c.mem.metrics i) := by
  rcases h.tallied with ⟨f, htallied⟩
  rw [funext htallied.metrics]
  exact htallied.ordered.add h.countedBy_ordered

theorem counters_in_order (s₀ : Shared) (i : Nat) (h₀ : Ordered (s₀.metrics i)) (acts : List Act)
    (hok : ∀ job, .spawn i job ∈ acts → job.MetricsOk) (c : Cpus)
    (hrun : (Cpus.start s₀).run acts = some c) :
    Ordered (c.mem.metrics i) ∧
    (c.threads i = none → ∀ id ∈ [MetricId.totalPackets, .egressTotal],
      c.mem.metrics i id = s₀.metrics i id + acts.countP (starts i id)) := by
  have h := run_counting h₀ hok hrun
  refine ⟨h.ordered, fun hidle id hid => ?_⟩
  rcases h.tallied with ⟨f, htallied⟩
  rw [hidle] at htallied
  rw [htallied.metrics id]
  exact htallied.firsts id hid

theorem sample_counters_in_order :
    ∃ c, (Cpus.start sampleShared).run sampleActs = some c ∧ Ordered (c.mem.metrics 0) := by
  rcases sampleActs_done with ⟨c, -, -, -, hrun, -, -⟩
  refine ⟨c, hrun, (counters_in_order sampleShared 0 (by decide) sampleActs ?_ c hrun).1⟩
  intro job hjob
  obtain rfl : job = .ingress .allOk zeroScratch shortQuery := by
    simpa [sampleActs, queryActs] using hjob
  exact fun _ => rfl

end DnsGateway.Smp
