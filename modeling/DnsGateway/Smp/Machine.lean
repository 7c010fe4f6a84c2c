import DnsGateway.Smp.Ingress
import DnsGateway.Smp.Egress
import DnsGateway.Health.Checker
import DnsGateway.System.World

/-!
# The gateway on several CPUs

A CPU runs one program at a time.  Its accesses take turns with those of the other CPUs, with the
controller's writes of the bypass bit and with what the kernel does to `conntrack_map`.
-/

namespace DnsGateway.Smp

open DnsGateway.Reasoning DnsGateway.Bpf DnsGateway.Ebpf DnsGateway.Health

inductive Job where
  | ingress (ok : Helpers) (scratch : ScratchBuf) (skb : SkBuff)
  | egress (ok : Helpers) (skb : SkBuff)

def Job.prog : Job → Run Result
  | .ingress ok scratch skb => dnsGatewayIngress ok scratch skb
  | .egress ok skb => dnsGatewayEgress ok skb

/-- The key of the one entry that the job may write. -/
def Job.key : Job → ConntrackKey
  | .ingress _ _ skb => skb.queryKey
  | .egress _ skb => skb.responseKey

inductive Outside where
  -- `SetBypass`.  Nobody else writes `config_map`, so its lookup and its update are one move.
  | setBypass (lookupOk updateOk on : Bool)
  | tick (now : UInt64)
  -- The LRU map drops an entry,
  | evict (key : ConntrackKey)
  -- and uses the memory of a removed element for a later one.
  | recycle (p q : Nat)

def Shared.outside : Outside → Shared → Option Shared
  | .setBypass lookupOk updateOk on, s =>
      some { s with config := (setBypass lookupOk updateOk on s.config).2 }
  | .tick now, s => if s.clock ≤ now then some { s with clock := now } else none
  | .evict key, s => some { s with conntrack := s.conntrack.delete key }
  | .recycle p q, s => (s.conntrack.recycle p q).map fun ct => { s with conntrack := ct }

abbrev Cpus := Machine Nat Access Access.Answer Result Shared Job

abbrev Act := MachineAct Nat Job Outside

abbrev CpusStep := MachineStep (E := Outside) Job.prog Shared.exec Shared.outside

def Cpus.start (s : Shared) : Cpus := { mem := s, threads := fun _ => none }

def Cpus.next (c : Cpus) (a : Act) : Option Cpus :=
  Machine.next Job.prog Shared.exec Shared.outside c a

def Cpus.run (c : Cpus) (acts : List Act) : Option Cpus := acts.foldlM Cpus.next c

/-- The program of CPU `i` has returned `r`; `s` is what it started from and `ops` are its
accesses. -/
def Cpus.Finished (c : Cpus) (i : Nat) (job : Job) (s : Shared) (ops : List Access) (r : Result) :
    Prop :=
  c.threads i = some ⟨job, .ret r, s, ops⟩

/-! ## Every move -/

theorem recycle_cases {ct ct' : Conntrack} {p q : Nat} (h : ct.recycle p q = some ct') :
    ct'.index = ct.index ∧ ct'.elems = ct.elems ∧ p < q ∧
      ct'.cell = Function.update ct.cell p q := by
  unfold Conntrack.recycle at h
  split at h
  · split at h
    · rename_i hpq
      cases h
      exact ⟨rfl, rfl, hpq.2.1, rfl⟩
    · cases h
  · cases h

theorem outside_keeps {e : Outside} {s t : Shared} (h : s.outside e = some t) : Keeps s t := by
  cases e with
  | setBypass lookupOk updateOk on =>
      cases h
      refine ⟨rfl, ?_, List.prefix_refl _, fun _ hp => hp, fun _ _ => le_rfl, UInt64.le_refl _⟩
      dsimp only
      rcases setBypass_cases lookupOk updateOk on s.config with ⟨-, hset⟩ | ⟨-, hset, -⟩
      · rw [hset]
      · rw [hset]
  | tick now =>
      simp only [Shared.outside] at h
      split at h
      · rename_i hle
        cases h
        exact ⟨rfl, rfl, List.prefix_refl _, fun _ hp => hp, fun _ _ => le_rfl, hle⟩
      · cases h
  | evict key =>
      cases h
      exact ⟨rfl, rfl, List.prefix_refl _, fun _ hp => hp, fun _ _ => le_rfl, UInt64.le_refl _⟩
  | recycle p q =>
      rcases Option.map_eq_some_iff.mp h with ⟨ct, hct, rfl⟩
      rcases recycle_cases hct with ⟨-, helems, hpq, hcell⟩
      refine ⟨rfl, rfl, ?_, fun p' hp' => ?_, fun _ _ => le_rfl, UInt64.le_refl _⟩
      · show s.conntrack.elems <+: ct.elems
        rw [helems]
      · replace hp' : ct.cell p' = p' := hp'
        rw [hcell, Function.update_apply] at hp'
        split at hp'
        · omega
        · exact hp'

theorem step_keeps {c d : Cpus} {a : Act} (h : CpusStep c a d) : Keeps c.mem d.mem := by
  cases h with
  | spawn i j hfree => exact Keeps.refl _
  | access i j o k origin made hthread => exact exec_keeps i o c.mem
  | finish i j r origin made hthread => exact Keeps.refl _
  | env e m h => exact outside_keeps h

/-- What is known of the runs in flight, after the actions `past` from `s₀`. -/
structure Reached (s₀ : Shared) (c : Cpus) (past : List Act) : Prop where
  keeps : Keeps s₀ c.mem
  tracked : ∀ i, Tracked Job.prog Shared.exec Keeps i c
  origin : ∀ i t, c.threads i = some t → Keeps s₀ t.origin
  spawned : ∀ i t, c.threads i = some t → .spawn i t.job ∈ past

theorem Reached.step {s₀ : Shared} {c d : Cpus} {past : List Act} {a : Act}
    (h : Reached s₀ c past) (hstep : CpusStep c a d) : Reached s₀ d (past ++ [a]) := by
  have hkeeps : Keeps s₀ d.mem := h.keeps.trans _ _ _ (step_keeps hstep)
  have htracked : ∀ i, Tracked Job.prog Shared.exec Keeps i d :=
    fun i => (h.tracked i).step hstep fun _ => step_keeps hstep
  refine ⟨hkeeps, htracked, fun i t ht => ?_, fun i t ht => ?_⟩
  · rcases hstep.thread ht with ⟨-, hnew, -⟩ | ⟨t', ht', -, horigin, -, -⟩
    · rw [hnew]
      exact h.keeps
    · rw [← horigin]
      exact h.origin i t' ht'
  · rw [List.mem_append, List.mem_singleton]
    rcases hstep.thread ht with ⟨ha, -, -⟩ | ⟨t', ht', hjob, -, -, -⟩
    · exact Or.inr ha.symm
    · rw [← hjob]
      exact Or.inl (h.spawned i t' ht')

theorem reached_start (s₀ : Shared) : Reached s₀ (Cpus.start s₀) [] where
  keeps := Keeps.refl s₀
  tracked := fun _ _ ht => by cases ht
  origin := fun _ _ ht => by cases ht
  spawned := fun _ _ ht => by cases ht

theorem run_reached {s₀ : Shared} {acts : List Act} {c : Cpus}
    (hrun : (Cpus.start s₀).run acts = some c) : Reached s₀ c acts :=
  foldlM_history_invariant (fun _ _ _ _ hnext h => h.step (machine_next_step hnext)) []
    (reached_start s₀) hrun

theorem run_append {c e : Cpus} {as bs : List Act} (h : c.run (as ++ bs) = some e) :
    ∃ d, c.run as = some d ∧ d.run bs = some e := by
  rw [Cpus.run, List.foldlM_append] at h
  exact Option.bind_eq_some_iff.mp h

/-! ## Finished runs -/

def sampleShared : Shared where
  suffixRules := .empty
  config := sampleConfig actionHostResolve
  conntrack := .empty
  metrics := fun _ _ => 0
  clock := 0

/-- The program of CPU `i` has returned, with this of what it started from and of its result. -/
def Cpus.done (c : Cpus) (i : Nat) (f : Shared → Result → Bool) : Bool :=
  match c.threads i with
  | some ⟨_, .ret r, s, _⟩ => f s r
  | _ => false

theorem done_finished {c : Cpus} {i : Nat} {f : Shared → Result → Bool}
    (h : c.done i f = true) : ∃ job s ops r, c.Finished i job s ops r ∧ f s r = true := by
  unfold Cpus.done at h
  split at h
  · rename_i job r s ops ht
    exact ⟨job, s, ops, r, ht, h⟩
  · cases h

-- For a run on fixed packets: it is evaluated, and the job is the only one of the CPU.
theorem run_done {s₀ : Shared} {acts : List Act} {i : Nat} {job : Job}
    {f : Shared → Result → Bool} (h : ((Cpus.start s₀).run acts).any (·.done i f) = true)
    (hjob : ∀ job', .spawn i job' ∈ acts → job' = job) :
    ∃ c s ops r, (Cpus.start s₀).run acts = some c ∧ c.Finished i job s ops r ∧
      f s r = true := by
  rcases (Option.any_eq_true _ _).mp h with ⟨c, hrun, hc⟩
  rcases done_finished hc with ⟨job', s, ops, r, hdone, hr⟩
  obtain rfl : job' = job := hjob job' ((run_reached hrun).spawned i _ hdone)
  exact ⟨c, s, ops, r, hrun, hdone, hr⟩

def queryActs : List Act :=
  .spawn 0 (.ingress .allOk zeroScratch shortQuery) :: List.replicate 13 (.access 0)

-- CPU 1 gets the response while CPU 0, which has made the entry, is still with the query.
def sampleActs : List Act :=
  queryActs.take 12 ++
    [.spawn 1 (.egress .allOk shortResponse), .access 1, .access 0, .access 1, .access 0] ++
    List.replicate 7 (.access 1)

theorem sampleActs_done :
    ∃ c s ops r, (Cpus.start sampleShared).run sampleActs = some c ∧
      c.Finished 1 (.egress .allOk shortResponse) s ops r ∧ (r.natRc == some 0) = true := by
  apply run_done (f := fun _ r => r.natRc == some 0)
  · decide +kernel
  · simp [sampleActs, queryActs]

theorem mem_deleteOps {ok : Helpers} {key : ConntrackKey} {o : Access}
    (h : o ∈ deleteOps ok key) : o = .ctDelete key := by
  unfold deleteOps at h
  split at h
  · exact List.mem_singleton.mp h
  · cases h

theorem mem_ingressWrites {r : Result} {ok : Helpers} {key : ConntrackKey} {val : ConntrackValue}
    {o : Access} (h : o ∈ r.ingressWrites ok key val) :
    r.inserted = some true ∧ (o = .ctUpdate key val ∨ o = .ctDelete key) := by
  unfold Result.ingressWrites at h
  split at h
  · rename_i hins
    rcases List.mem_cons.mp h with heq | hdel
    · exact ⟨hins, Or.inl heq⟩
    · split at hdel
      · exact ⟨hins, Or.inr (mem_deleteOps hdel)⟩
      · cases hdel
  · cases h

theorem mem_egressWrites {ok : Helpers} {key : ConntrackKey} {ops : List Access} {o : Access}
    (hwrites : EgressWrites ok key ops) (h : o ∈ ops.filter Access.tracks) :
    o = .ctDelete key := by
  rcases hwrites with hnone | hdel
  · rw [hnone] at h
    cases h
  · rw [hdel] at h
    exact mem_deleteOps h

theorem isQuery_of_inserted {ok : Helpers} {now : UInt64} {skb : SkBuff} {m : Maps}
    (h : (Bpf.dnsGatewayIngress ok now skb m).inserted = some true) : IsQuery m.configMap skb := by
  cases (ingress_end ok now skb m).2 with
  | early _ _ _ _ _ hins =>
      rw [hins] at h
      cases h
  | cluster _ _ _ _ _ _ _ hins =>
      rw [hins] at h
      cases h
  | insertFailed _ _ _ _ _ _ _ _ hins =>
      rw [hins] at h
      cases h
  | natFailed _ _ _ hadm => exact hadm.query
  | redirected _ _ _ hadm => exact hadm.query

-- An entry is made by an ingress run that has read a bypass bit of zero, for a query to CoreDNS.
theorem IngressAtomic.update {R : Shared → Shared → Prop} [Rely R] {ok : Helpers}
    {scratch : ScratchBuf} {skb : SkBuff} {s u : Shared} {ops : List Access} {r : Result}
    (h : IngressAtomic R ok scratch skb s u ops r) {key : ConntrackKey} {val : ConntrackValue}
    (hmem : .ctUpdate key val ∈ ops) :
    ∃ t, R s t ∧ IsQuery t.config skb ∧ skb.queryKey = key ∧
      val.corednsIp = s.config.corednsIp ∧ s.clock ≤ val.timestampNs ∧
      val.timestampNs ≤ u.clock := by
  have hwrite : .ctUpdate key val ∈ ops.filter Access.tracks := List.mem_filter.mpr ⟨hmem, rfl⟩
  rcases h.on_maps with ⟨t, now, m, hst, hconfig, hlo, hhi, hops, hm⟩
  rw [hops] at hwrite
  rcases mem_ingressWrites hwrite with ⟨hins, heq | heq⟩
  · cases heq
    have hquery := isQuery_of_inserted (hm.inserted.trans hins)
    rw [hconfig] at hquery
    exact ⟨t, hst, hquery, rfl, rfl, hlo, hhi⟩
  · cases heq

theorem EgressAtomic.not_update {R : Shared → Shared → Prop} {ok : Helpers} {skb : SkBuff}
    {s u : Shared} {ops : List Access} {r : Result} (h : EgressAtomic R ok skb s u ops r)
    {key : ConntrackKey} {val : ConntrackValue} : .ctUpdate key val ∉ ops := by
  intro hmem
  have hwrite : .ctUpdate key val ∈ ops.filter Access.tracks := List.mem_filter.mpr ⟨hmem, rfl⟩
  rcases h with ⟨now, found, -, -, -, hwrites, -⟩
  cases mem_egressWrites hwrites hwrite

-- A run writes the entry of its own key only.
theorem job_writes {cpu : Nat} {job : Job} {s u : Shared} {ops : List Access} {r : Result}
    (h : Runs (Shared.exec cpu) Keeps job.prog s ops r u) {o : Access} (hmem : o ∈ ops)
    (ho : o.tracks = true) : (∃ val, o = .ctUpdate job.key val) ∨ o = .ctDelete job.key := by
  have hwrite : o ∈ ops.filter Access.tracks := List.mem_filter.mpr ⟨hmem, ho⟩
  cases job with
  | ingress ok scratch skb =>
      rcases ingress_atomic h with ⟨t, now, -, -, -, -, hops, -⟩
      rw [hops] at hwrite
      rcases mem_ingressWrites hwrite with ⟨-, heq | heq⟩
      · exact Or.inl ⟨_, heq⟩
      · exact Or.inr heq
  | egress ok skb =>
      rcases egress_atomic h with ⟨now, found, -, -, -, hwrites, -⟩
      exact Or.inr (mem_egressWrites hwrites hwrite)

theorem exec_clock (cpu : Nat) (o : Access) (s : Shared) : (s.exec cpu o).2.clock = s.clock := by
  cases o <;> rfl

theorem run_clock {cpu : Nat} {α : Type} (p : Run α) (s : Shared) :
    (p.run (Shared.exec cpu) s).2.2.clock = s.clock := by
  induction p generalizing s with
  | ret a => rfl
  | access o k ih => exact (ih _ _).trans (exec_clock cpu o s)

theorem exec_elems (cpu : Nat) (o : Access) (s : Shared) :
    (s.exec cpu o).2.conntrack.elems = s.conntrack.elems ∨
      ∃ e, o = .ctUpdate e.1 e.2 ∧
        (s.exec cpu o).2.conntrack.elems = s.conntrack.elems ++ [e] := by
  cases o with
  | ctUpdate key val => exact Or.inr ⟨(key, val), rfl, rfl⟩
  | _ => exact Or.inl rfl

theorem outside_elems {e : Outside} {s t : Shared} (h : s.outside e = some t) :
    t.conntrack.elems = s.conntrack.elems := by
  cases e with
  | setBypass lookupOk updateOk on =>
      cases h
      rfl
  | tick now =>
      simp only [Shared.outside] at h
      split at h
      · cases h
        rfl
      · cases h
  | evict key =>
      cases h
      rfl
  | recycle p q =>
      rcases Option.map_eq_some_iff.mp h with ⟨ct, hct, rfl⟩
      exact (recycle_cases hct).2.1

-- A new element is one that a CPU inserts.
theorem step_elems {c d : Cpus} {a : Act} (hstep : CpusStep c a d) :
    d.mem.conntrack.elems = c.mem.conntrack.elems ∨
      ∃ e i job k origin made,
        c.threads i = some ⟨job, .access (.ctUpdate e.1 e.2) k, origin, made⟩ ∧
          d.mem.conntrack.elems = c.mem.conntrack.elems ++ [e] := by
  cases hstep with
  | spawn i j hfree => exact Or.inl rfl
  | access i j o k origin made hthread =>
      rcases exec_elems i o c.mem with hsame | ⟨e, rfl, hnew⟩
      · exact Or.inl hsame
      · exact Or.inr ⟨e, i, j, k, origin, made, hthread, hnew⟩
  | finish i j r origin made hthread => exact Or.inl rfl
  | env e m h => exact Or.inl (outside_elems h)

/-- An ingress run in flight inserts `e`, for a query to CoreDNS. -/
structure Inserts (s₀ : Shared) (c : Cpus) (e : ConntrackKey × ConntrackValue) (i : Nat)
    (ok : Helpers) (scratch : ScratchBuf) (query : SkBuff) : Prop where
  job : ∃ t, c.threads i = some t ∧ t.job = .ingress ok scratch query
  key : query.queryKey = e.1
  query : IsQuery { s₀.config with bypass := 0 } query
  corednsIp : e.2.corednsIp = s₀.config.corednsIp
  time : e.2.timestampNs ≤ c.mem.clock

-- Let the CPU that is about to insert go on alone, and look at that run.
theorem Reached.inserts {s₀ : Shared} {c d : Cpus} {past : List Act} {a : Act}
    (h : Reached s₀ c past) (hstep : CpusStep c a d) {e : ConntrackKey × ConntrackValue}
    (he : e ∈ d.mem.conntrack.elems) :
    e ∈ c.mem.conntrack.elems ∨ ∃ i ok scratch query, Inserts s₀ c e i ok scratch query := by
  rcases step_elems hstep with hsame | ⟨e', i, job, k, origin, made, ht, hnew⟩
  · rw [hsame] at he
    exact Or.inl he
  rw [hnew, List.mem_append, List.mem_singleton] at he
  rcases he with hold | rfl
  · exact Or.inl hold
  · rcases (h.tracked i _ ht).next Keeps.refl Keeps.trans with ⟨ops, r, m, hruns, hm⟩
    have hmem : .ctUpdate e.1 e.2 ∈ made ++ .ctUpdate e.1 e.2 :: ops :=
      List.mem_append_right _ List.mem_cons_self
    cases job with
    | egress ok skb => exact absurd hmem (egress_atomic hruns).not_update
    | ingress ok scratch query =>
        rcases (ingress_atomic hruns).update hmem with
          ⟨t, hst, hquery, hkey, hcoredns, -, hhi⟩
        have horigin := h.origin i _ ht
        have hsettings := (horigin.trans _ _ _ hst).settings t.config.bypass
        rw [hquery.bypass] at hsettings
        have hconfig : t.config = { t.config with bypass := 0 } := by
          rw [← hquery.bypass]
        rw [hconfig, hsettings] at hquery
        rw [hm, run_clock] at hhi
        exact Or.inr ⟨i, ok, scratch, query, ⟨_, ht, rfl⟩, hkey, hquery,
          hcoredns.trans horigin.corednsIp, hhi⟩

/-- No element is from the future. -/
def Timely (s : Shared) : Prop := ∀ e ∈ s.conntrack.elems, e.2.timestampNs ≤ s.clock

theorem run_timely {s₀ : Shared} (h₀ : Timely s₀) {acts : List Act} {c : Cpus}
    (hrun : (Cpus.start s₀).run acts = some c) : Timely c.mem := by
  have hnext : ∀ c past a d, Cpus.next c a = some d → Reached s₀ c past ∧ Timely c.mem →
      Reached s₀ d (past ++ [a]) ∧ Timely d.mem := by
    rintro c past a d hnext ⟨hreached, htimely⟩
    have hstep := machine_next_step hnext
    refine ⟨hreached.step hstep, fun e he => UInt64.le_trans ?_ (step_keeps hstep).clock⟩
    rcases hreached.inserts hstep he with hold | ⟨i, ok, scratch, query, hins⟩
    · exact htimely e hold
    · exact hins.time
  exact (foldlM_history_invariant hnext [] ⟨reached_start s₀, h₀⟩ hrun).2

end DnsGateway.Smp
