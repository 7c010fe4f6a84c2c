import DnsGateway.Smp.Counters
import Mathlib.Algebra.Order.BigOperators.Group.List
import Mathlib.Algebra.Order.Group.Nat

/-!
# Scrapes

`ReadMetrics` reads one counter after the other, all CPUs' slots of one at a time, while the
programs go on counting.
-/

namespace DnsGateway.Smp

open DnsGateway.Reasoning DnsGateway.Bpf

/-- The values of `MetricID`, in their order. -/
def metricIds : List MetricId :=
  [.totalPackets, .dnsQueries, .suffixMatch, .suffixNoMatch, .bypassActive, .parseError,
    .egressSnat, .egressConntrackMiss, .egressTotal, .natError, .natRevertFail, .redirected,
    .clusterResolved]

abbrev MetricSnapshot := MetricId → UInt64

/-- A program that looks up counters, and gets the slots of all CPUs. -/
abbrev Reading := Prog MetricId fun _ => List UInt64

/-- The loop of `ReadMetrics`: the snapshot, and the counter whose lookup failed. -/
def readFrom (lookupOk : MetricId → Bool) :
    List MetricId → MetricSnapshot → Reading (MetricSnapshot × Option MetricId)
  | [], snap => pure (snap, none)
  | id :: ids, snap =>
      if lookupOk id then do
        let perCPU ← perform id
        readFrom lookupOk ids (Function.update snap id (perCPU.foldl (· + ·) 0))
      else pure (snap, some id)

def readMetrics (lookupOk : MetricId → Bool) : Reading (MetricSnapshot × Option MetricId) :=
  readFrom lookupOk metricIds fun _ => 0

/-- A lookup in `metrics_map` on a machine with `n` CPUs. -/
def Cpus.lookupMetric (n : Nat) (id : MetricId) (c : Cpus) : List UInt64 × Cpus :=
  ((List.range n).map fun cpu => UInt64.ofNat (c.mem.metrics cpu id), c)

/-- The sum of a counter over the CPUs. -/
def Cpus.total (c : Cpus) (n : Nat) (id : MetricId) : Nat :=
  ((List.range n).map fun cpu => c.mem.metrics cpu id).sum

/-- The CPUs go on, counting. -/
def Advances (c d : Cpus) : Prop :=
  ∃ acts, c.run acts = some d ∧ ∀ i job, .spawn i job ∈ acts → job.MetricsOk

theorem Advances.refl (c : Cpus) : Advances c c := ⟨[], rfl, fun i job h => by cases h⟩

theorem Advances.trans (c d e : Cpus) (hcd : Advances c d) (hde : Advances d e) :
    Advances c e := by
  rcases hcd with ⟨acts, hrun, hok⟩
  rcases hde with ⟨acts', hrun', hok'⟩
  refine ⟨acts ++ acts', ?_, fun i job hmem => ?_⟩
  · exact (foldlM_append_some hrun acts').trans hrun'
  · rcases List.mem_append.mp hmem with h | h
    · exact hok i job h
    · exact hok' i job h

theorem Advances.metrics {c d : Cpus} (h : Advances c d) (cpu : Nat) (id : MetricId) :
    c.mem.metrics cpu id ≤ d.mem.metrics cpu id := by
  rcases h with ⟨acts, hrun, -⟩
  have hnext : ∀ d a e, Cpus.next d a = some e → Keeps c.mem d.mem → Keeps c.mem e.mem :=
    fun d a e hnext h => h.trans _ _ _ (step_keeps (machine_next_step hnext))
  exact (foldlM_invariant hnext (Keeps.refl c.mem) hrun).metrics cpu id

theorem Advances.total {c d : Cpus} (h : Advances c d) (n : Nat) (id : MetricId) :
    c.total n id ≤ d.total n id :=
  List.sum_le_sum fun cpu _ => h.metrics cpu id

theorem foldl_ofNat (l : List Nat) (x : Nat) :
    (l.map UInt64.ofNat).foldl (· + ·) (UInt64.ofNat x) = UInt64.ofNat (x + l.sum) := by
  induction l generalizing x with
  | nil => rfl
  | cons y l ih =>
      rw [List.map_cons, List.foldl_cons, ← UInt64.ofNat_add, ih, List.sum_cons, Nat.add_assoc]

theorem lookupMetric_sum (n : Nat) (id : MetricId) (c : Cpus) :
    (c.lookupMetric n id).1.foldl (· + ·) 0 = UInt64.ofNat (c.total n id) := by
  have h := foldl_ofNat ((List.range n).map fun cpu => c.mem.metrics cpu id) 0
  rw [List.map_map, Nat.zero_add] at h
  exact h

theorem runs_advances {α : Type} {p : Reading α} {n : Nat} {c d : Cpus} {ops : List MetricId}
    {a : α} (h : Runs (Cpus.lookupMetric n) Advances p c ops a d) : Advances c d := by
  induction h with
  | ret hmove => exact hmove
  | access hmove _ ih => exact hmove.trans _ _ _ ih

theorem ordered_sum {m : Nat → MetricId → Nat} (h : ∀ cpu, Ordered (m cpu)) (cpus : List Nat) :
    Ordered fun id => (cpus.map fun cpu => m cpu id).sum := by
  induction cpus with
  | nil => exact (by decide : Ordered fun _ => 0)
  | cons cpu cpus ih => exact (h cpu).add ih

/-- The relations between what one scrape shows, and what another. -/
structure OrderedBetween (lo hi : MetricId → Nat) : Prop where
  queries : lo .bypassActive + lo .dnsQueries ≤ hi .totalPackets
  lookups : lo .suffixMatch + lo .suffixNoMatch + lo .parseError ≤ hi .dnsQueries
  outcomes : lo .redirected + lo .clusterResolved ≤ hi .suffixMatch + hi .suffixNoMatch
  responses : lo .egressSnat + lo .egressConntrackMiss ≤ hi .egressTotal
  reverts : lo .natRevertFail ≤ hi .natError
  failures : lo .redirected + lo .clusterResolved + lo .egressSnat + lo .egressConntrackMiss +
    lo .natError ≤ hi .suffixMatch + hi .suffixNoMatch + hi .egressTotal

theorem Ordered.between {lo c hi : MetricId → Nat} (h : Ordered c) (hlo : ∀ id, lo id ≤ c id)
    (hhi : ∀ id, c id ≤ hi id) : OrderedBetween lo hi := by
  rcases h with ⟨h₁, h₂, h₃, h₄, h₅, h₆⟩
  constructor <;> grind

/-- The moments at which a scrape reads the counters `ids`. -/
structure Moments (n : Nat) (ids : List MetricId) (snap : MetricSnapshot) (c d : Cpus)
    (moment : MetricId → Cpus) : Prop where
  behind : ∀ id ∈ ids, Advances c (moment id)
  before : ∀ id ∈ ids, Advances (moment id) d
  ordered : ids.Pairwise fun a b => Advances (moment a) (moment b)
  value : ∀ id ∈ ids, snap id = UInt64.ofNat ((moment id).total n id)

theorem readFrom_moments {n : Nat} {lookupOk : MetricId → Bool} {ids : List MetricId}
    (hids : ids.Nodup) {snap₀ snap : MetricSnapshot} {c d : Cpus} {ops : List MetricId}
    (h : Runs (Cpus.lookupMetric n) Advances (readFrom lookupOk ids snap₀) c ops (snap, none) d) :
    (∀ id ∉ ids, snap id = snap₀ id) ∧ ∃ moment, Moments n ids snap c d moment := by
  induction ids generalizing snap₀ c ops with
  | nil =>
      rcases runs_pure.mp h with ⟨-, heq, -⟩
      cases heq
      refine ⟨fun _ _ => rfl, fun _ => c, ?_, ?_, .nil, ?_⟩
      all_goals
        intro id hid
        cases hid
  | cons id ids ih =>
      unfold readFrom at h
      split at h
      · rcases runs_perform.mp h with ⟨c₁, ops₁, hmove, rfl, hrest⟩
        rcases List.nodup_cons.mp hids with ⟨hnot, hids'⟩
        rcases ih hids' hrest with ⟨hframe, moment, hm⟩
        have hc₁d : Advances c₁ d := runs_advances hrest
        have hne : ∀ x ∈ ids, x ≠ id := fun x hx heq => hnot (heq ▸ hx)
        refine ⟨fun x hx => ?_, Function.update moment id c₁, fun x hx => ?_, fun x hx => ?_, ?_,
          fun x hx => ?_⟩
        · rw [List.mem_cons, not_or] at hx
          rw [hframe x hx.2, Function.update_of_ne hx.1]
        · rcases List.mem_cons.mp hx with rfl | hx
          · rw [Function.update_self]
            exact hmove
          · rw [Function.update_of_ne (hne x hx)]
            exact hmove.trans _ _ _ (hm.behind x hx)
        · rcases List.mem_cons.mp hx with rfl | hx
          · rw [Function.update_self]
            exact hc₁d
          · rw [Function.update_of_ne (hne x hx)]
            exact hm.before x hx
        · rw [List.pairwise_cons]
          refine ⟨fun x hx => ?_, hm.ordered.imp_of_mem fun ha hb hab => ?_⟩
          · rw [Function.update_self, Function.update_of_ne (hne x hx)]
            exact hm.behind x hx
          · rw [Function.update_of_ne (hne _ ha), Function.update_of_ne (hne _ hb)]
            exact hab
        · rcases List.mem_cons.mp hx with rfl | hx
          · rw [Function.update_self, hframe x hnot, Function.update_self]
            exact lookupMetric_sum n x c₁
          · rw [Function.update_of_ne (hne x hx)]
            exact hm.value x hx
      · rcases runs_pure.mp h with ⟨-, heq, -⟩
        cases heq

/-! ## Whole scrapes -/

/-- A scrape from `c` to `d` that shows `snap`. -/
def Scrapes (n : Nat) (c d : Cpus) (snap : MetricSnapshot) : Prop :=
  ∃ lookupOk ops,
    Runs (Cpus.lookupMetric n) Advances (readMetrics lookupOk) c ops (snap, none) d

theorem mem_metricIds (id : MetricId) : id ∈ metricIds := by
  cases id <;> decide

theorem scrape_moments {n : Nat} {c d : Cpus} {snap : MetricSnapshot} (h : Scrapes n c d snap) :
    ∃ moment, Moments n metricIds snap c d moment := by
  rcases h with ⟨lookupOk, ops, hruns⟩
  exact (readFrom_moments (by decide) hruns).2

theorem Scrapes.advances {n : Nat} {c d : Cpus} {snap : MetricSnapshot} (h : Scrapes n c d snap) :
    Advances c d := by
  rcases h with ⟨lookupOk, ops, hruns⟩
  exact runs_advances hruns

section Values

variable {n : Nat} {c d : Cpus} {snap : MetricSnapshot} {moment : MetricId → Cpus}

theorem Moments.toNat (h : Moments n metricIds snap c d moment) {id : MetricId}
    (hfits : d.total n id < 2 ^ 64) : (snap id).toNat = (moment id).total n id := by
  have hle := (h.before id (mem_metricIds id)).total n id
  rw [h.value id (mem_metricIds id), UInt64.toNat_ofNat', Nat.mod_eq_of_lt (by omega)]

-- Each counter shows a value that it had during the scrape.
theorem Moments.between (h : Moments n metricIds snap c d moment) {id : MetricId}
    (hfits : d.total n id < 2 ^ 64) :
    c.total n id ≤ (snap id).toNat ∧ (snap id).toNat ≤ d.total n id := by
  rw [h.toNat hfits]
  exact ⟨(h.behind id (mem_metricIds id)).total n id, (h.before id (mem_metricIds id)).total n id⟩

end Values

theorem advances_ordered {s₀ : Shared} (h₀ : ∀ cpu, Ordered (s₀.metrics cpu)) {c : Cpus}
    (h : Advances (Cpus.start s₀) c) (n : Nat) : Ordered (c.total n) := by
  rcases h with ⟨acts, hrun, hok⟩
  exact ordered_sum (fun cpu => (run_counting (h₀ cpu) (hok cpu) hrun).ordered) (List.range n)

-- What a scrape shows of a counter is at most what the next one shows.
theorem Scrapes.le {n : Nat} {c₁ d₁ c₂ d₂ : Cpus} {snap₁ snap₂ : MetricSnapshot}
    (hscrape₁ : Scrapes n c₁ d₁ snap₁) (hbetween : Advances d₁ c₂)
    (hscrape₂ : Scrapes n c₂ d₂ snap₂) {id : MetricId} (hfits : d₂.total n id < 2 ^ 64) :
    (snap₁ id).toNat ≤ d₁.total n id ∧ d₁.total n id ≤ (snap₂ id).toNat := by
  rcases scrape_moments hscrape₁ with ⟨moment₁, hm₁⟩
  rcases scrape_moments hscrape₂ with ⟨moment₂, hm₂⟩
  have hfits₁ : d₁.total n id < 2 ^ 64 :=
    lt_of_le_of_lt ((hbetween.trans _ _ _ hscrape₂.advances).total n id) hfits
  exact ⟨(hm₁.between hfits₁).2, (hbetween.total n id).trans (hm₂.between hfits).1⟩

-- Of its three counters `ReadMetrics` reads the total last.
theorem Scrapes.responses {n : Nat} {s₀ : Shared} (h₀ : ∀ cpu, Ordered (s₀.metrics cpu))
    {c d : Cpus} {snap : MetricSnapshot} (hstart : Advances (Cpus.start s₀) c)
    (h : Scrapes n c d snap) (hfits : ∀ id, d.total n id < 2 ^ 64) :
    (snap .egressSnat).toNat + (snap .egressConntrackMiss).toNat ≤
      (snap .egressTotal).toNat := by
  rcases scrape_moments h with ⟨moment, hm⟩
  have hread := List.pairwise_iff_getElem.mp hm.ordered
  have hsnat : Advances (moment .egressSnat) (moment .egressTotal) :=
    hread 6 8 (by decide) (by decide) (by decide)
  have hmiss : Advances (moment .egressConntrackMiss) (moment .egressTotal) :=
    hread 7 8 (by decide) (by decide) (by decide)
  have hlast := hstart.trans _ _ _ (hm.behind .egressTotal (mem_metricIds _))
  have hordered := (advances_ordered h₀ hlast n).responses
  have hsnat' := hsnat.total n .egressSnat
  have hmiss' := hmiss.total n .egressConntrackMiss
  rw [hm.toNat (hfits _), hm.toNat (hfits _), hm.toNat (hfits _)]
  omega

theorem scrapes_ordered (n : Nat) (s₀ : Shared) (h₀ : ∀ cpu, Ordered (s₀.metrics cpu))
    (c₁ d₁ c₂ d₂ : Cpus) (snap₁ snap₂ : MetricSnapshot) (hstart : Advances (Cpus.start s₀) c₁)
    (hscrape₁ : Scrapes n c₁ d₁ snap₁) (hbetween : Advances d₁ c₂)
    (hscrape₂ : Scrapes n c₂ d₂ snap₂) (hfits : ∀ id, d₂.total n id < 2 ^ 64) :
    OrderedBetween (fun id => (snap₁ id).toNat) (fun id => (snap₂ id).toNat) ∧
    (snap₁ .egressSnat).toNat + (snap₁ .egressConntrackMiss).toNat ≤
      (snap₁ .egressTotal).toNat := by
  have hle := fun id => hscrape₁.le hbetween hscrape₂ (hfits id)
  have hd₁ : Advances (Cpus.start s₀) d₁ := hstart.trans _ _ _ hscrape₁.advances
  refine ⟨(advances_ordered h₀ hd₁ n).between (fun id => (hle id).1) fun id => (hle id).2, ?_⟩
  refine hscrape₁.responses h₀ hstart fun id => lt_of_le_of_lt ?_ (hfits id)
  exact (hbetween.trans _ _ _ hscrape₂.advances).total n id

-- A scrape whose lookups go through, while nothing moves.
theorem scrapes_still (n : Nat) (c : Cpus) : ∃ snap, Scrapes n c c snap := by
  have hread : ∀ ids snap₀, ∃ ops snap,
      Runs (Cpus.lookupMetric n) Advances (readFrom (fun _ => true) ids snap₀) c ops (snap, none)
        c := by
    intro ids
    induction ids with
    | nil => exact fun snap₀ => ⟨[], snap₀, .ret (Advances.refl c)⟩
    | cons id ids ih =>
        intro snap₀
        rcases ih (Function.update snap₀ id ((c.lookupMetric n id).1.foldl (· + ·) 0)) with
          ⟨ops, snap, hruns⟩
        exact ⟨id :: ops, snap, .access (Advances.refl c) hruns⟩
  rcases hread metricIds (fun _ => 0) with ⟨ops, snap, hruns⟩
  exact ⟨snap, fun _ => true, ops, hruns⟩

-- Scrapes in front of a query and its response, and behind.
theorem sample_scrapes :
    ∃ c snap₁ snap₂, (Cpus.start sampleShared).run sampleActs = some c ∧
      Scrapes 2 (Cpus.start sampleShared) (Cpus.start sampleShared) snap₁ ∧
      Advances (Cpus.start sampleShared) c ∧ Scrapes 2 c c snap₂ ∧
      ∀ id, c.total 2 id < 2 ^ 64 := by
  have hsmall : ((Cpus.start sampleShared).run sampleActs).any (fun c =>
      metricIds.all fun id => c.total 2 id < 2 ^ 64) = true := by
    decide +kernel
  rcases (Option.any_eq_true _ _).mp hsmall with ⟨c, hrun, hfits⟩
  rcases scrapes_still 2 (Cpus.start sampleShared) with ⟨snap₁, hscrape₁⟩
  rcases scrapes_still 2 c with ⟨snap₂, hscrape₂⟩
  refine ⟨c, snap₁, snap₂, hrun, hscrape₁, ⟨sampleActs, hrun, fun i job hjob => ?_⟩, hscrape₂,
    fun id => of_decide_eq_true (List.all_eq_true.mp hfits id (mem_metricIds id))⟩
  have hcases : i = 0 ∧ job = .ingress .allOk zeroScratch shortQuery ∨
      i = 1 ∧ job = .egress .allOk shortResponse := by
    simpa [sampleActs, queryActs] using hjob
  rcases hcases with ⟨-, rfl⟩ | ⟨-, rfl⟩ <;> exact fun _ => rfl

theorem sample_scrapes_ordered :
    ∃ c snap₁ snap₂, (Cpus.start sampleShared).run sampleActs = some c ∧
      Scrapes 2 (Cpus.start sampleShared) (Cpus.start sampleShared) snap₁ ∧
      Scrapes 2 c c snap₂ ∧
      OrderedBetween (fun id => (snap₁ id).toNat) (fun id => (snap₂ id).toNat) := by
  rcases sample_scrapes with ⟨c, snap₁, snap₂, hrun, hscrape₁, hbetween, hscrape₂, hfits⟩
  have h := scrapes_ordered 2 sampleShared (fun _ => (by decide : Ordered fun _ => 0)) _ _ c c snap₁
    snap₂ (Advances.refl _) hscrape₁ hbetween hscrape₂ hfits
  exact ⟨c, snap₁, snap₂, hrun, hscrape₁, hscrape₂, h.1⟩

end DnsGateway.Smp
