import DnsGateway.Cmd.Shutdown
import DnsGateway.Smp.Scrape

/-!
# The Prometheus collector (`internal/metrics/collector.go`)

Every scrape reads its sources anew, while the CPUs go on counting and the health checker goes on
probing.  Names and values are sent as they are here; the conversion of the values to `float64` is
left out.
-/

namespace DnsGateway.Metrics

open DnsGateway.Reasoning DnsGateway.Bpf DnsGateway.Health DnsGateway.Cmd DnsGateway.Smp

inductive ValueType where
  | counter
  | gauge
  deriving DecidableEq

structure Metric where
  name : String
  valueType : ValueType
  value : Nat

/-- `BuildFQName`, with the package's namespace. -/
def fqName (name : String) : String := "bpf_dns_gateway" ++ "_" ++ name

def datapathMetrics : List (MetricId × String) :=
  [(.totalPackets, "ingress_total_packets"), (.dnsQueries, "dns_queries_total"),
    (.suffixMatch, "suffix_match_total"), (.suffixNoMatch, "suffix_no_match_total"),
    (.redirected, "redirected_total"), (.clusterResolved, "cluster_resolved_total"),
    (.bypassActive, "bypass_packets_total"), (.parseError, "parse_errors_total"),
    (.egressSnat, "egress_snat_total"), (.egressConntrackMiss, "egress_conntrack_miss_total"),
    (.egressTotal, "egress_total_packets"), (.natError, "nat_errors_total"),
    (.natRevertFail, "nat_revert_failures_total")]

/-- What one scrape gets from `ReadMetrics`, from `CountSuffixRules` (nothing if it fails) and from
the attach and health sources (nothing if there is none). -/
structure Sources where
  readMetrics : MetricSnapshot × Option MetricId
  countSuffixRules : Option Nat
  attachedCount : Option Nat
  health : Option (UInt64 × Bool)

/-- The metrics sent, and the number of errors recorded. -/
def collectDatapath (src : Sources) : List Metric × Nat :=
  match src.readMetrics with
  | (_, some _) => ([], 1)
  | (snap, none) =>
      (datapathMetrics.map fun m => ⟨fqName m.2, .counter, (snap m.1).toNat⟩, 0)

def collectController (src : Sources) : List Metric × Nat :=
  let rules : List Metric × Nat :=
    match src.countSuffixRules with
    | none => ([], 1)
    | some n => ([⟨fqName "suffix_rules_loaded", .gauge, n⟩], 0)
  let attach : List Metric :=
    match src.attachedCount with
    | none => []
    | some n => [⟨fqName "attached_veths", .gauge, n⟩]
  let health : List Metric :=
    match src.health with
    | none => []
    | some (probeFailures, bypassActive) =>
        [⟨fqName "bypass_active", .gauge, if bypassActive then 1 else 0⟩,
          ⟨fqName "health_check_failures", .counter, probeFailures.toNat⟩]
  (rules.1 ++ attach ++ health, rules.2)

/-- `Collect`, with `scrapeErrors` counted up to now: the metrics sent, and the errors behind. -/
def collect (scrapeErrors : Nat) (src : Sources) : List Metric × Nat :=
  let datapath := collectDatapath src
  let controller := collectController src
  let errors := scrapeErrors + datapath.2 + controller.2
  (datapath.1 ++ controller.1 ++ [⟨fqName "scrape_errors_total", .counter, errors⟩], errors)

/-! ## Metrics by what they are about -/

inductive Subject where
  | datapath (id : MetricId)
  | suffixRules
  | attachedVeths
  | bypassActive
  | healthFailures
  | scrapeErrors
  deriving DecidableEq

def subjects : List Subject :=
  datapathMetrics.map (fun m => .datapath m.1) ++
    [.suffixRules, .attachedVeths, .bypassActive, .healthFailures, .scrapeErrors]

def Subject.valueType : Subject → ValueType
  | .datapath _ | .healthFailures | .scrapeErrors => .counter
  | .suffixRules | .attachedVeths | .bypassActive => .gauge

def Subject.name : Subject → String
  | .datapath id => fqName ((datapathMetrics.lookup id).getD "")
  | .suffixRules => fqName "suffix_rules_loaded"
  | .attachedVeths => fqName "attached_veths"
  | .bypassActive => fqName "bypass_active"
  | .healthFailures => fqName "health_check_failures"
  | .scrapeErrors => fqName "scrape_errors_total"

/-- What a scrape shows of a subject. -/
def Subject.value (scrapeErrors : Nat) (src : Sources) : Subject → Option Nat
  | .datapath id => if src.readMetrics.2.isSome then none else some (src.readMetrics.1 id).toNat
  | .suffixRules => src.countSuffixRules
  | .attachedVeths => src.attachedCount
  | .bypassActive => src.health.map fun h => if h.2 then 1 else 0
  | .healthFailures => src.health.map fun h => h.1.toNat
  | .scrapeErrors => some (collect scrapeErrors src).2

theorem names_nodup : (subjects.map Subject.name).Nodup := by
  decide +kernel

theorem mem_subjects (s : Subject) : s ∈ subjects := by
  cases s with
  | datapath id => cases id <;> decide
  | _ => decide

theorem name_injective {s t : Subject} (h : s.name = t.name) : s = t :=
  List.inj_on_of_nodup_map names_nodup (mem_subjects s) (mem_subjects t) h

theorem collect_eq (scrapeErrors : Nat) (src : Sources) :
    (collect scrapeErrors src).1 = subjects.filterMap fun s =>
      (s.value scrapeErrors src).map fun v => ⟨s.name, s.valueType, v⟩ := by
  rcases src with ⟨⟨snap, err⟩, rules, attach, health⟩
  cases err <;> cases rules <;> cases attach <;> cases health <;> rfl

theorem mem_collect {scrapeErrors : Nat} {src : Sources} {m : Metric}
    (h : m ∈ (collect scrapeErrors src).1) :
    ∃ s : Subject, m.name = s.name ∧ m.valueType = s.valueType ∧
      s.value scrapeErrors src = some m.value := by
  rw [collect_eq] at h
  rcases List.mem_filterMap.mp h with ⟨s, -, hs⟩
  rcases Option.map_eq_some_iff.mp hs with ⟨v, hv, rfl⟩
  exact ⟨s, rfl, rfl, hv⟩

/-- A scrape that gets `src`, on a machine with `n` CPUs that goes from `c` to `d` meanwhile. -/
def ScrapeGets (n : Nat) (c d : Cpus) (src : Sources) : Prop :=
  ∃ lookupOk ops,
    Runs (Cpus.lookupMetric n) Advances (readMetrics lookupOk) c ops src.readMetrics d

theorem ScrapeGets.scrapes {n : Nat} {c d : Cpus} {src : Sources} (h : ScrapeGets n c d src)
    (hok : src.readMetrics.2.isSome = false) : Scrapes n c d src.readMetrics.1 := by
  rcases h with ⟨lookupOk, ops, hruns⟩
  have hnone : src.readMetrics = (src.readMetrics.1, none) :=
    Prod.ext rfl (Option.isSome_eq_false_iff.mp hok |> Option.isNone_iff_eq_none.mp)
  rw [hnone] at hruns
  exact ⟨lookupOk, ops, hruns⟩

/-- What the collector reads: the CPUs that count, and the process with its checker. -/
structure Exporter where
  cpus : Cpus
  process : Process
  -- How many actions the process has taken.
  actions : Nat
  scrapeErrors : Nat

def Exporter.start (s₀ : Shared) : Exporter where
  cpus := .start s₀
  process := .start s₀.config
  actions := 0
  scrapeErrors := 0

/-- Time without a scrape. -/
structure Passes (threshold : Int64) (x y : Exporter) : Prop where
  cpus : Advances x.cpus y.cpus
  process : ∃ acts, x.process.steps threshold acts = some y.process ∧
    y.actions = x.actions + acts.length
  scrapeErrors : y.scrapeErrors = x.scrapeErrors

/-- A scrape that gets `src`.  It loads `bypassActive` before `probeFailures`, and the process may
act in front of, between and behind the two. -/
structure Collects (n : Nat) (threshold : Int64) (x y : Exporter) (src : Sources) : Prop where
  readMetrics : ScrapeGets n x.cpus y.cpus src
  health : ∃ acts p acts' q acts'', x.process.steps threshold acts = some p ∧
    p.steps threshold acts' = some q ∧ q.steps threshold acts'' = some y.process ∧
    y.actions = x.actions + (acts ++ acts' ++ acts'').length ∧
    src.health = some (q.checker.probeFailures, p.checker.bypassActive)
  scrapeErrors : y.scrapeErrors = (collect x.scrapeErrors src).2

/-- The scrapes of a run, one after the other, with what each of them sent. -/
inductive Exports (n : Nat) (threshold : Int64) (x : Exporter) :
    List (List Metric) → Exporter → Prop where
  | start : Exports n threshold x [] x
  | passes {scrapes : List (List Metric)} {y z : Exporter} (h : Exports n threshold x scrapes y)
      (hpasses : Passes threshold y z) : Exports n threshold x scrapes z
  | scrape {scrapes : List (List Metric)} {y z : Exporter} {src : Sources}
      (h : Exports n threshold x scrapes y) (hcollects : Collects n threshold y z src) :
      Exports n threshold x (scrapes ++ [(collect y.scrapeErrors src).1]) z

/-- The counter behind a metric. -/
def Exporter.level (n : Nat) (x : Exporter) : Subject → Nat
  | .datapath id => x.cpus.total n id
  | .healthFailures => x.process.checker.probeFailures.toNat
  | .scrapeErrors => x.scrapeErrors
  | .suffixRules | .attachedVeths | .bypassActive => 0

/-- The failures counted are among the actions taken, so that their count has not wrapped. -/
def Exporter.Counted (x : Exporter) : Prop :=
  x.process.checker.probeFailures.toNat ≤ x.actions

section Levels

variable {n : Nat} {threshold : Int64} {x y : Exporter} {src : Sources}

theorem Passes.level_le (h : Passes threshold x y) (hx : x.Counted)
    (hactions : y.actions < 2 ^ 64) : y.Counted ∧ ∀ s, x.level n s ≤ y.level n s := by
  rcases h with ⟨hcpus, ⟨acts, hsteps, hlength⟩, herrors⟩
  unfold Exporter.Counted at hx ⊢
  have hfailures := steps_probeFailures hsteps (by omega)
  refine ⟨by omega, fun s => ?_⟩
  cases s with
  | datapath id => exact hcpus.total n id
  | healthFailures => exact hfailures.1
  | scrapeErrors => exact herrors.ge
  | _ => exact le_rfl

theorem Collects.advances (h : Collects n threshold x y src) : Advances x.cpus y.cpus := by
  rcases h.readMetrics with ⟨lookupOk, ops, hruns⟩
  exact runs_advances hruns

-- A scrape shows of every counter a value that it had meanwhile.
theorem Collects.between (h : Collects n threshold x y src) (hx : x.Counted)
    (hfits : ∀ id, y.cpus.total n id < 2 ^ 64) (hactions : y.actions < 2 ^ 64) :
    y.Counted ∧ ∀ s : Subject, s.valueType = .counter → x.level n s ≤ y.level n s ∧
      ∀ v, s.value x.scrapeErrors src = some v → x.level n s ≤ v ∧ v ≤ y.level n s := by
  have hadvances := h.advances
  rcases h with ⟨hread, ⟨acts, p, acts', q, acts'', hp, hq, hy, hlength, hhealth⟩, herrors⟩
  simp only [List.length_append] at hlength
  unfold Exporter.Counted at hx ⊢
  have hfailures := steps_probeFailures hp (by omega)
  have hfailures' := steps_probeFailures hq (by omega)
  have hfailures'' := steps_probeFailures hy (by omega)
  refine ⟨by omega, fun s hcounter => ?_⟩
  cases s with
  | datapath id =>
      refine ⟨hadvances.total n id, fun v hv => ?_⟩
      simp only [Subject.value] at hv
      split at hv
      · cases hv
      · rename_i hok
        rcases scrape_moments (hread.scrapes (Bool.eq_false_iff.mpr hok)) with ⟨moment, hm⟩
        rw [← Option.some_inj.mp hv]
        exact hm.between (hfits id)
  | healthFailures =>
      simp only [Exporter.level, Subject.value, hhealth, Option.map_some, Option.some_inj]
      refine ⟨by omega, ?_⟩
      rintro v rfl
      omega
  | scrapeErrors =>
      have hgrow : x.scrapeErrors ≤ (collect x.scrapeErrors src).2 := by
        unfold collect
        dsimp only
        omega
      simp only [Exporter.level, Subject.value, Option.some_inj, herrors]
      refine ⟨hgrow, ?_⟩
      rintro v rfl
      exact ⟨hgrow, le_rfl⟩
  | suffixRules => cases hcounter
  | attachedVeths => cases hcounter
  | bypassActive => cases hcounter

end Levels

/-- The metrics of one scrape and those of a later one. -/
def Grows (ms ms' : List Metric) : Prop :=
  ∀ m ∈ ms, ∀ m' ∈ ms', m.name = m'.name →
    m.valueType = m'.valueType ∧ (m.valueType = .counter → m.value ≤ m'.value)

/-- No scrape has shown more than what its counters have come to. -/
structure Shown (n : Nat) (scrapes : List (List Metric)) (x : Exporter) : Prop where
  counted : x.Counted
  below : ∀ ms ∈ scrapes, ∀ m ∈ ms, ∃ s : Subject, m.name = s.name ∧
    m.valueType = s.valueType ∧ (s.valueType = .counter → m.value ≤ x.level n s)
  grows : scrapes.Pairwise Grows

theorem Shown.start (n : Nat) (s₀ : Shared) : Shown n [] (.start s₀) where
  counted := le_rfl
  below := fun _ h => by cases h
  grows := .nil

section Shown

variable {n : Nat} {threshold : Int64} {scrapes : List (List Metric)} {x y : Exporter}

theorem Shown.mono (h : Shown n scrapes x) (hy : y.Counted)
    (hle : ∀ s : Subject, s.valueType = .counter → x.level n s ≤ y.level n s) :
    Shown n scrapes y := by
  refine ⟨hy, fun ms hms m hm => ?_, h.grows⟩
  rcases h.below ms hms m hm with ⟨s, hname, htype, hvalue⟩
  exact ⟨s, hname, htype, fun hcounter => (hvalue hcounter).trans (hle s hcounter)⟩

theorem Shown.scrape {src : Sources} (h : Shown n scrapes x)
    (hcollects : Collects n threshold x y src) (hfits : ∀ id, y.cpus.total n id < 2 ^ 64)
    (hactions : y.actions < 2 ^ 64) :
    Shown n (scrapes ++ [(collect x.scrapeErrors src).1]) y := by
  rcases hcollects.between h.counted hfits hactions with ⟨hy, hbetween⟩
  refine ⟨hy, ?_, ?_⟩
  · rw [List.forall_mem_append, List.forall_mem_singleton]
    refine ⟨(h.mono hy fun s hs => (hbetween s hs).1).below, fun m hm => ?_⟩
    rcases mem_collect hm with ⟨s, hname, htype, hvalue⟩
    exact ⟨s, hname, htype, fun hcounter => ((hbetween s hcounter).2 _ hvalue).2⟩
  · refine List.pairwise_append.mpr ⟨h.grows, List.pairwise_singleton _ _, ?_⟩
    intro ms hms ms' hms' m hm m' hm' hname
    rw [List.mem_singleton.mp hms'] at hm'
    rcases h.below ms hms m hm with ⟨s, hs, htype, hvalue⟩
    rcases mem_collect hm' with ⟨t, ht, htype', hvalue'⟩
    obtain rfl : s = t := name_injective (hs.symm.trans (hname.trans ht))
    refine ⟨htype.trans htype'.symm, fun hcounter => ?_⟩
    rw [htype] at hcounter
    exact (hvalue hcounter).trans ((hbetween s hcounter).2 _ hvalue').1

theorem Exports.shown {s₀ : Shared} (h : Exports n threshold (.start s₀) scrapes x)
    (hfits : ∀ id, x.cpus.total n id < 2 ^ 64) (hactions : x.actions < 2 ^ 64) :
    Shown n scrapes x := by
  induction h with
  | start => exact Shown.start n s₀
  | passes _ hpasses ih =>
      rcases hpasses.process with ⟨acts, -, hlength⟩
      have hshown := ih (fun id => lt_of_le_of_lt (hpasses.cpus.total n id) (hfits id)) (by omega)
      rcases hpasses.level_le hshown.counted hactions with ⟨hy, hle⟩
      exact hshown.mono hy fun s _ => hle s
  | scrape _ hcollects ih =>
      rcases hcollects.health with ⟨acts, p, acts', q, acts'', -, -, -, hlength, -⟩
      have hshown := ih (fun id => lt_of_le_of_lt (hcollects.advances.total n id) (hfits id))
        (by omega)
      exact hshown.scrape hcollects hfits hactions

end Shown

/-- Over a whole run no exported counter falls from one scrape to a later one, whichever of their
reads fail, and a name never changes its type. -/
theorem exported_counters_grow (n : Nat) (threshold : Int64) (s₀ : Shared)
    (scrapes : List (List Metric)) (x : Exporter) (hrun : Exports n threshold (.start s₀) scrapes x)
    (hfits : ∀ id, x.cpus.total n id < 2 ^ 64) (hactions : x.actions < 2 ^ 64) :
    scrapes.Pairwise Grows :=
  (hrun.shown hfits hactions).grows

/-- What a scrape gets when nothing fails. -/
def allSources (snap : MetricSnapshot) (checker : Checker) : Sources where
  readMetrics := (snap, none)
  countSuffixRules := some 1
  attachedCount := some 1
  health := some (checker.probeFailures, checker.bypassActive)

-- A scrape while nothing moves.
theorem collects_still {n : Nat} (threshold : Int64) {x : Exporter} {snap : MetricSnapshot}
    (h : Scrapes n x.cpus x.cpus snap) :
    Collects n threshold x x (allSources snap x.process.checker) where
  readMetrics := h
  health := ⟨[], x.process, [], x.process, [], rfl, rfl, rfl, rfl, rfl⟩
  scrapeErrors := rfl

/-- Two scrapes, with an exchange of packets and a failed probe between them. -/
theorem sample_counters_grow :
    ∃ scrapes x, Exports 2 3 (.start sampleShared) scrapes x ∧ scrapes.length = 2 ∧
      x.process.checker.probeFailures = 1 ∧ scrapes.Pairwise Grows := by
  rcases sample_scrapes with ⟨c, snap₁, snap₂, hrun, hscrape₁, hbetween, hscrape₂, hfits⟩
  let probe : List Cmd.Act := [.probeReturns true, .ctxCheck]
  let y : Exporter :=
    { cpus := c
      process :=
        { Process.start sampleShared.config with
          checker := { consecutiveFailures := 1, probeFailures := 1 }
          pc := .waiting }
      actions := 2
      scrapeErrors := 0 }
  have hpasses : Passes 3 (.start sampleShared) y := ⟨hbetween, ⟨probe, rfl, rfl⟩, rfl⟩
  have hexports : Exports 2 3 (.start sampleShared) _ y :=
    ((Exports.start.scrape (collects_still 3 hscrape₁)).passes hpasses).scrape
      (collects_still 3 (x := y) hscrape₂)
  have hactions : 2 < 2 ^ 64 := by decide
  exact ⟨_, y, hexports, rfl, rfl,
    exported_counters_grow 2 3 sampleShared _ y hexports hfits hactions⟩

end DnsGateway.Metrics
