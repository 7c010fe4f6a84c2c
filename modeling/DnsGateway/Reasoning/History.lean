import Mathlib.Data.List.Basic
import Mathlib.Data.List.Induction

/-!
# Runs, their logs and what is outstanding in a log

A system takes a list of inputs; each step may log events, or be disabled. An invariant may relate
the state to the inputs and the log. For logs whose events grant and revoke values by key,
`outstanding` is the value a key was granted last and has not been hit since.
-/

namespace DnsGateway.Reasoning

section Logs

variable {σ α ε : Type*} (step : σ → α → σ) (emit : σ → α → List ε)

/-- The events logged in a run from `s`. -/
def logFrom : σ → List α → List ε
  | _, [] => []
  | s, a :: as => emit s a ++ logFrom (step s a) as

variable {step emit}

-- What one step preserves, of the state, the inputs and the log so far, holds after every run.
theorem foldl_history_invariant {Inv : σ → List α → List ε → Prop} {Ok : α → Prop}
    (hstep : ∀ s past es a, Ok a → Inv s past es →
      Inv (step s a) (past ++ [a]) (es ++ emit s a))
    {s : σ} (past : List α) {es : List ε} (h : Inv s past es) {as : List α}
    (has : ∀ a ∈ as, Ok a) :
    Inv (as.foldl step s) (past ++ as) (es ++ logFrom step emit s as) := by
  induction as generalizing s past es with
  | nil =>
      rw [logFrom, List.append_nil, List.append_nil]
      exact h
  | cons a as ih =>
      rw [logFrom, ← List.append_assoc, List.append_cons, List.foldl_cons]
      apply ih
      · exact hstep s past es a (has a List.mem_cons_self) h
      · intro b hb
        exact has b (List.mem_cons_of_mem a hb)

-- The same for invariants that do not look at the inputs.
theorem foldl_log_invariant {Inv : σ → List ε → Prop} {Ok : α → Prop}
    (hstep : ∀ s es a, Ok a → Inv s es → Inv (step s a) (es ++ emit s a)) {s : σ} {es : List ε}
    (h : Inv s es) {as : List α} (has : ∀ a ∈ as, Ok a) :
    Inv (as.foldl step s) (es ++ logFrom step emit s as) := by
  let Inv' := fun (s : σ) (_ : List α) (es : List ε) => Inv s es
  have hstep' : ∀ s past es a, Ok a → Inv' s past es →
      Inv' (step s a) (past ++ [a]) (es ++ emit s a) := fun s _ es a => hstep s es a
  exact foldl_history_invariant hstep' [] h has

-- Systems whose steps keep a relation between their states and log the same have the same logs.
theorem foldl_lockstep {τ β : Type*} {step' : τ → β → τ} {emit' : τ → β → List ε}
    {Rel : σ → τ → Prop} {Input : α → β → Prop}
    (hstep : ∀ s t a b, Rel s t → Input a b → Rel (step s a) (step' t b) ∧ emit s a = emit' t b)
    {s : σ} {t : τ} (h : Rel s t) {as : List α} {bs : List β} (hin : List.Forall₂ Input as bs) :
    Rel (as.foldl step s) (bs.foldl step' t) ∧
      logFrom step emit s as = logFrom step' emit' t bs := by
  induction hin generalizing s t with
  | nil => exact ⟨h, rfl⟩
  | @cons a b as bs hab _ ih =>
      rcases hstep s t a b h hab with ⟨hnext, hlog⟩
      rcases ih hnext with ⟨hend, hlogs⟩
      rw [logFrom, logFrom, hlog, hlogs]
      exact ⟨hend, rfl⟩

end Logs

section Partial

variable {σ α : Type*} {step : σ → α → Option σ}

-- The invariant rule for systems whose inputs can be disabled, with the inputs so far.
theorem foldlM_history_invariant {Inv : σ → List α → Prop}
    (hstep : ∀ s past a t, step s a = some t → Inv s past → Inv t (past ++ [a])) {s t : σ}
    (past : List α) (h : Inv s past) {as : List α} (hrun : as.foldlM step s = some t) :
    Inv t (past ++ as) := by
  induction as generalizing s past with
  | nil =>
      cases hrun
      rwa [List.append_nil]
  | cons a as ih =>
      rw [List.foldlM_cons] at hrun
      cases hnext : step s a with
      | none =>
          rw [hnext] at hrun
          cases hrun
      | some s' =>
          rw [hnext] at hrun
          rw [List.append_cons]
          exact ih (past ++ [a]) (hstep s past a s' hnext h) hrun

-- The same for runs whose inputs are all of one kind.
theorem foldlM_history_invariant_of {Inv : σ → List α → Prop} {Ok : α → Prop}
    (hstep : ∀ s past a t, Ok a → step s a = some t → Inv s past → Inv t (past ++ [a])) {s t : σ}
    {past : List α} (h : Inv s past) {as : List α} (hrun : as.foldlM step s = some t)
    (has : ∀ a ∈ as, Ok a) : Inv t (past ++ as) := by
  have hkind : ∀ s xs a t, step s a = some t →
      ((∀ x ∈ xs, Ok x) → Inv s (past ++ xs)) →
      (∀ x ∈ xs ++ [a], Ok x) → Inv t (past ++ (xs ++ [a])) := by
    intro s xs a t hnext hs hok
    rw [← List.append_assoc]
    refine hstep s _ a t (hok a List.mem_concat_self) hnext (hs fun x hx => ?_)
    exact hok x (List.mem_append_left _ hx)
  have hstart : (∀ x ∈ ([] : List α), Ok x) → Inv s (past ++ []) := by
    intro _
    rwa [List.append_nil]
  exact foldlM_history_invariant hkind [] hstart hrun has

-- The same for invariants of the state alone.
theorem foldlM_invariant {Inv : σ → Prop} (hstep : ∀ s a t, step s a = some t → Inv s → Inv t)
    {s t : σ} (h : Inv s) {as : List α} (hrun : as.foldlM step s = some t) : Inv t := by
  let Inv' := fun (s : σ) (_ : List α) => Inv s
  have hstep' : ∀ s past a t, step s a = some t → Inv' s past → Inv' t (past ++ [a]) :=
    fun s _ a t => hstep s a t
  exact foldlM_history_invariant hstep' [] h hrun

theorem foldlM_cons_some {s s' : σ} {a : α} (hnext : step s a = some s') (as : List α) :
    (a :: as).foldlM step s = as.foldlM step s' := by
  rw [List.foldlM_cons, hnext]
  rfl

theorem foldlM_append_some {s t : σ} {as : List α} (hrun : as.foldlM step s = some t)
    (bs : List α) : (as ++ bs).foldlM step s = bs.foldlM step t := by
  rw [List.foldlM_append, hrun]
  rfl

theorem foldlM_concat_some {s t u : σ} {as : List α} (hrun : as.foldlM step s = some t) {a : α}
    (hnext : step t a = some u) : (as ++ [a]).foldlM step s = some u :=
  (foldlM_append_some hrun [a]).trans (foldlM_cons_some hnext [])

-- Forward simulation: a step is matched by one step of the other system, or by none.
theorem foldlM_simulation {τ β : Type*} {step' : τ → β → Option τ} {Inv : σ → Prop}
    {R : σ → τ → Prop} (hinv : ∀ s a t, step s a = some t → Inv s → Inv t)
    (hmatch : ∀ s a t u, step s a = some t → Inv s → R s u →
      R t u ∨ ∃ b v, step' u b = some v ∧ R t v)
    {s t : σ} {u : τ} (hs : Inv s) (hu : R s u) {as : List α} (hrun : as.foldlM step s = some t) :
    ∃ (bs : List β) (v : τ), bs.foldlM step' u = some v ∧ R t v := by
  let Inv' := fun s : σ => Inv s ∧ ∃ (bs : List β) (v : τ), bs.foldlM step' u = some v ∧ R s v
  have hnext : ∀ s a t, step s a = some t → Inv' s → Inv' t := by
    rintro s a t hstep ⟨hs, bs, v, hbs, hv⟩
    refine ⟨hinv s a t hstep hs, ?_⟩
    rcases hmatch s a t v hstep hs hv with ht | ⟨b, w, hb, hw⟩
    · exact ⟨bs, v, hbs, ht⟩
    · exact ⟨bs ++ [b], w, foldlM_concat_some hbs hb, hw⟩
  exact (foldlM_invariant hnext ⟨hs, [], u, rfl, hu⟩ hrun).2

-- The points of a run are its start and those behind its first step.
theorem foldlM_points_cons {P : σ → Prop} {s s' : σ} {a : α} (hnext : step s a = some s')
    (as : List α) :
    (∀ pre u, pre <+: a :: as → pre.foldlM step s = some u → P u) ↔
      P s ∧ ∀ pre u, pre <+: as → pre.foldlM step s' = some u → P u := by
  constructor
  · intro h
    refine ⟨h [] s List.nil_prefix rfl, fun pre u hpre hu => ?_⟩
    exact h (a :: pre) u (List.cons_prefix_cons.mpr ⟨rfl, hpre⟩)
      ((foldlM_cons_some hnext pre).trans hu)
  · rintro ⟨hs, hrest⟩ pre u hpre hu
    cases pre with
    | nil =>
        cases hu
        exact hs
    | cons c pre =>
        rw [List.cons_prefix_cons] at hpre
        rw [hpre.1, foldlM_cons_some hnext] at hu
        exact hrest pre u hpre.2 hu

-- The steps of a run are its first one and those behind it.
theorem foldlM_steps_cons {P : σ → α → Prop} {s s' : σ} {a : α} (hnext : step s a = some s')
    (as : List α) :
    (∀ pre b u, pre ++ [b] <+: a :: as → pre.foldlM step s = some u → P u b) ↔
      P s a ∧ ∀ pre b u, pre ++ [b] <+: as → pre.foldlM step s' = some u → P u b := by
  constructor
  · intro h
    refine ⟨h [] a s (List.cons_prefix_cons.mpr ⟨rfl, List.nil_prefix⟩) rfl,
      fun pre b u hpre hu => ?_⟩
    exact h (a :: pre) b u (List.cons_prefix_cons.mpr ⟨rfl, hpre⟩)
      ((foldlM_cons_some hnext pre).trans hu)
  · rintro ⟨hs, hrest⟩ pre b u hpre hu
    cases pre with
    | nil =>
        cases hu
        rw [List.nil_append, List.cons_prefix_cons] at hpre
        rwa [hpre.1]
    | cons c pre =>
        rw [List.cons_append, List.cons_prefix_cons] at hpre
        rw [hpre.1, foldlM_cons_some hnext] at hu
        exact hrest pre b u hpre.2 hu

-- When the invariant can only be lost in bad steps, and these show, a run looks good at every
-- point exactly when it takes no bad step.
theorem foldlM_prefixes_iff {Inv Good : σ → Prop} {Bad : σ → α → Prop} {Ok : α → Prop}
    (hgood : ∀ s, Inv s → Good s)
    (hstep : ∀ s a t, Ok a → step s a = some t → Inv s → ¬ Bad s a → Inv t)
    (hbad : ∀ s a t, Ok a → step s a = some t → Inv s → Bad s a → ¬ Good t)
    {s t : σ} (h : Inv s) {as : List α} (has : ∀ a ∈ as, Ok a) (hrun : as.foldlM step s = some t) :
    (∀ pre u, pre <+: as → pre.foldlM step s = some u → Good u) ↔
      ∀ pre a u, pre ++ [a] <+: as → pre.foldlM step s = some u → ¬ Bad u a := by
  induction as generalizing s with
  | nil =>
      constructor
      · intro _ pre a u hpre
        simp at hpre
      · intro _ pre u hpre hu
        rw [List.prefix_nil.mp hpre] at hu
        cases hu
        exact hgood s h
  | cons a as ih =>
      rw [List.foldlM_cons] at hrun
      cases hnext : step s a with
      | none =>
          rw [hnext] at hrun
          cases hrun
      | some s' =>
          rw [hnext] at hrun
          have hok : Ok a := has a List.mem_cons_self
          rw [foldlM_points_cons hnext, foldlM_steps_cons hnext]
          by_cases hb : Bad s a
          · constructor
            · rintro ⟨-, hrest⟩
              exact absurd (hrest [] s' List.nil_prefix rfl) (hbad s a s' hok hnext h hb)
            · rintro ⟨hfree, -⟩
              exact absurd hb hfree
          · have hrest := ih (hstep s a s' hok hnext h hb)
              (fun b hb => has b (List.mem_cons_of_mem a hb)) hrun
            exact and_congr (iff_of_true (hgood s h) hb) hrest

end Partial

section Outstanding

variable {ε K V : Type*} [DecidableEq K] (key : ε → Option K) (value : ε → Option V) (k : K)

/-- The value of the last event that hits `k`. -/
def outstanding (es : List ε) : Option V :=
  es.foldl (fun v e => if key e = some k then value e else v) none

theorem outstanding_snoc (es : List ε) (e : ε) :
    outstanding key value k (es ++ [e]) =
      if key e = some k then value e else outstanding key value k es := by
  rw [outstanding, List.foldl_append]
  rfl

/-- Some event of `es` hits `k` with value `v`, and none behind it hits `k`. -/
def LastHit (v : V) (es : List ε) : Prop :=
  ∃ before e after, es = before ++ e :: after ∧ key e = some k ∧ value e = some v ∧
    ∀ e' ∈ after, key e' ≠ some k

omit [DecidableEq K] in
theorem lastHit_cons (v : V) (x : ε) (es : List ε) :
    LastHit key value k v (x :: es) ↔
      LastHit key value k v es ∨
        (key x = some k ∧ value x = some v ∧ ∀ e ∈ es, key e ≠ some k) := by
  constructor
  · rintro ⟨before, e, after, h, he, hv, hafter⟩
    rcases before with _ | ⟨y, before⟩
    · rw [List.nil_append, List.cons.injEq] at h
      rw [h.1, h.2]
      exact Or.inr ⟨he, hv, hafter⟩
    · rw [List.cons_append, List.cons.injEq] at h
      exact Or.inl ⟨before, e, after, h.2, he, hv, hafter⟩
  · rintro (⟨before, e, after, h, he, hv, hafter⟩ | ⟨he, hv, hafter⟩)
    · exact ⟨x :: before, e, after, by rw [h, List.cons_append], he, hv, hafter⟩
    · exact ⟨[], x, es, rfl, he, hv, hafter⟩

-- The accumulator survives exactly when nothing hits the key.
theorem foldl_hit_iff (es : List ε) (init : Option V) (v : V) :
    es.foldl (fun v e => if key e = some k then value e else v) init = some v ↔
      LastHit key value k v es ∨ (init = some v ∧ ∀ e ∈ es, key e ≠ some k) := by
  induction es generalizing init with
  | nil =>
      constructor
      · intro h
        exact Or.inr ⟨h, fun e he => absurd he List.not_mem_nil⟩
      · rintro (⟨before, e, after, h, -⟩ | h)
        · exact absurd h.symm (List.append_ne_nil_of_right_ne_nil _ (List.cons_ne_nil e after))
        · exact h.1
  | cons x es ih =>
      rw [List.foldl_cons, ih, lastHit_cons, List.forall_mem_cons]
      by_cases hx : key x = some k
      · simp only [hx, if_true, true_and, ne_eq, not_true_eq_false, false_and, and_false, or_false]
      · simp only [hx, if_false, false_and, or_false, ne_eq, not_false_eq_true, true_and]

-- An outstanding value comes from a last hit that granted it.
theorem outstanding_eq_some_iff (es : List ε) (v : V) :
    outstanding key value k es = some v ↔ LastHit key value k v es := by
  rw [outstanding, foldl_hit_iff]
  simp only [reduceCtorEq, false_and, or_false]

end Outstanding

section Since

variable {ε : Type*} (mark : ε → Option Bool)

/-- The first event marked `true` since the last one marked `false`. -/
def firstSince (es : List ε) : Option ε :=
  es.foldl
    (fun v e =>
      match mark e with
      | none => v
      | some true => v.or (some e)
      | some false => none)
    none

/-- The last mark. -/
def lastMark (es : List ε) : Option Bool := (es.filterMap mark).getLast?

theorem firstSince_snoc (es : List ε) (e : ε) :
    firstSince mark (es ++ [e]) =
      match mark e with
      | none => firstSince mark es
      | some true => (firstSince mark es).or (some e)
      | some false => none := by
  rw [firstSince, List.foldl_append]
  rfl

theorem lastMark_snoc (es : List ε) (e : ε) :
    lastMark mark (es ++ [e]) = (mark e).or (lastMark mark es) := by
  unfold lastMark
  rw [List.filterMap_append]
  cases he : mark e <;> simp [he]

theorem firstSince_isSome_iff (es : List ε) :
    (firstSince mark es).isSome = true ↔ lastMark mark es = some true := by
  induction es using List.reverseRecOn with
  | nil => simp [firstSince, lastMark]
  | append_singleton es e ih =>
      rw [firstSince_snoc, lastMark_snoc]
      cases he : mark e with
      | none => simpa using ih
      | some b => cases b <;> simp

omit mark in
-- The places of `e` in a list with one more element.
theorem exists_split_snoc (es : List ε) (x e : ε) (Q : List ε → List ε → Prop) :
    (∃ before after, es ++ [x] = before ++ e :: after ∧ Q before after) ↔
      x = e ∧ Q es [] ∨ ∃ before after, es = before ++ e :: after ∧ Q before (after ++ [x]) := by
  constructor
  · rintro ⟨before, after, h, hq⟩
    rcases List.eq_nil_or_concat after with rfl | ⟨after', y, rfl⟩
    · rcases List.append_inj' h rfl with ⟨rfl, hx⟩
      exact Or.inl ⟨List.singleton_inj.mp hx, hq⟩
    · rw [List.concat_eq_append] at h hq
      rw [← List.cons_append, ← List.append_assoc] at h
      rcases List.append_inj' h rfl with ⟨rfl, hx⟩
      cases hx
      exact Or.inr ⟨before, after', rfl, hq⟩
  · rintro (⟨rfl, hq⟩ | ⟨before, after, rfl, hq⟩)
    · exact ⟨es, [], rfl, hq⟩
    · exact ⟨before, after ++ [x], by simp, hq⟩

-- In terms of the events around it.
theorem firstSince_eq_some_iff (es : List ε) (e : ε) :
    firstSince mark es = some e ↔
      ∃ before after, es = before ++ e :: after ∧ mark e = some true ∧
        (∀ x ∈ after, mark x ≠ some false) ∧ lastMark mark before ≠ some true := by
  induction es using List.reverseRecOn with
  | nil => simp [firstSince]
  | append_singleton es x ih =>
      have hnone : lastMark mark es ≠ some true ↔ firstSince mark es = none := by
        rw [ne_eq, ← firstSince_isSome_iff, Option.not_isSome_iff_eq_none]
      have hold : (∃ before after, es = before ++ e :: after ∧ mark e = some true ∧
          (∀ y ∈ after ++ [x], mark y ≠ some false) ∧ lastMark mark before ≠ some true) ↔
            firstSince mark es = some e ∧ mark x ≠ some false := by
        rw [ih]
        constructor
        · rintro ⟨before, after, hes, hmark, hafter, hbefore⟩
          rw [List.forall_mem_append, List.forall_mem_singleton] at hafter
          exact ⟨⟨before, after, hes, hmark, hafter.1, hbefore⟩, hafter.2⟩
        · rintro ⟨⟨before, after, hes, hmark, hafter, hbefore⟩, hx⟩
          refine ⟨before, after, hes, hmark, ?_, hbefore⟩
          rw [List.forall_mem_append, List.forall_mem_singleton]
          exact ⟨hafter, hx⟩
      have hnew : x = e ∧ mark e = some true ∧ (∀ y ∈ ([] : List ε), mark y ≠ some false) ∧
          firstSince mark es = none ↔ mark x = some true ∧ firstSince mark es = none ∧ x = e := by
        constructor
        · rintro ⟨rfl, hmark, -, hfirst⟩
          exact ⟨hmark, hfirst, rfl⟩
        · rintro ⟨hmark, hfirst, rfl⟩
          exact ⟨rfl, hmark, by simp, hfirst⟩
      rw [exists_split_snoc, hold, hnone, hnew, firstSince_snoc, or_comm]
      cases mark x with
      | none => simp
      | some b =>
          cases b with
          | false => simp
          | true =>
              show (firstSince mark es).or (some x) = some e ↔ _
              rw [Option.or_eq_some_iff]
              simp

end Since

end DnsGateway.Reasoning
