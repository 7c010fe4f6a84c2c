import Mathlib.Data.List.MinMax

/-!
# Longest-suffix matching

A rule list binds keys (lists) to values; a name is resolved by the rule with the longest key that
is a suffix of the name.  Probing the tails of the name from the longest to the shortest and
stopping at the first hit computes the same answer.
-/

namespace DnsGateway.Reasoning

variable {α β : Type*}

/-- Probe the non-empty tails of a list, longest first. -/
def firstTail (table : List α → Option β) : List α → Option β
  | [] => none
  | x :: xs =>
      match table (x :: xs) with
      | some v => some v
      | none => firstTail table xs

/-- The value of a rule with the longest key that is a suffix of `name`. -/
def longestMatch [DecidableEq α] (rules : List (List α × β)) (name : List α) : Option β :=
  ((rules.filter fun r => r.1 <:+ name).argmax fun r => r.1.length).map Prod.snd

theorem firstTail_eq_none_iff {t : List α → Option β} {name : List α} :
    firstTail t name = none ↔ ∀ key, key <:+ name → key ≠ [] → t key = none := by
  induction name with
  | nil =>
      constructor
      · intro _ key hk hne
        exact absurd (List.suffix_nil.mp hk) hne
      · intro _
        rfl
  | cons x xs ih =>
      rw [firstTail]
      cases hx : t (x :: xs) with
      | some v =>
          refine ⟨fun h => by simp only [reduceCtorEq] at h, fun h => ?_⟩
          rw [h _ (List.suffix_refl _) (List.cons_ne_nil x xs)] at hx
          exact absurd hx (by simp only [reduceCtorEq, not_false_eq_true])
      | none =>
          rw [ih]
          constructor
          · intro h key hk hne
            rcases List.suffix_cons_iff.mp hk with he | hs
            · rw [he, hx]
            · exact h key hs hne
          · exact fun h key hk => h key (hk.trans (List.suffix_cons x xs))

-- A hit is a tail of the name, and no longer tail hits.
theorem firstTail_eq_some {t : List α → Option β} {name : List α} {v : β}
    (h : firstTail t name = some v) :
    ∃ key, key <:+ name ∧ key ≠ [] ∧ t key = some v ∧
      ∀ key', key' <:+ name → key' ≠ [] → t key' ≠ none → key'.length ≤ key.length := by
  induction name with
  | nil => simp only [firstTail, reduceCtorEq] at h
  | cons x xs ih =>
      rw [firstTail] at h
      cases hx : t (x :: xs) with
      | some w =>
          rw [hx] at h
          refine ⟨x :: xs, List.suffix_refl _, List.cons_ne_nil x xs, hx.trans h, ?_⟩
          exact fun key' hk _ _ => hk.length_le
      | none =>
          rw [hx] at h
          rcases ih h with ⟨key, hsuf, hne, hkey, hmax⟩
          refine ⟨key, hsuf.trans (List.suffix_cons x xs), hne, hkey, fun key' hk hne' hit => ?_⟩
          rcases List.suffix_cons_iff.mp hk with he | hs
          · exact absurd (he ▸ hx) hit
          · exact hmax key' hs hne' hit

-- In a table with one value any hit decides.
theorem firstTail_of_hit {t : List α → Option β} {name key : List α} {v : β}
    (hv : ∀ key w, t key = some w → w = v) (hk : key <:+ name) (hne : key ≠ [])
    (hit : t key ≠ none) : firstTail t name = some v := by
  cases h : firstTail t name with
  | none => exact absurd (firstTail_eq_none_iff.mp h key hk hne) hit
  | some w =>
      rcases firstTail_eq_some h with ⟨key', -, -, hw, -⟩
      rw [hv key' w hw]

-- Probing longest-first over a table that holds exactly the rules finds the longest match.
theorem firstTail_eq_longestMatch [DecidableEq α] {t : List α → Option β}
    {rules : List (List α × β)} {name : List α}
    (hne : ∀ r ∈ rules, r.1 ≠ [])
    (htab : ∀ key, key <:+ name → key ≠ [] → ∀ v, t key = some v ↔ (key, v) ∈ rules) :
    firstTail t name = longestMatch rules name := by
  unfold longestMatch
  cases harg : (rules.filter fun r => r.1 <:+ name).argmax fun r => r.1.length with
  | none =>
      rw [Option.map_none, firstTail_eq_none_iff]
      intro key hk hkne
      rw [Option.eq_none_iff_forall_not_mem]
      intro v hv
      have hmem := (htab key hk hkne v).mp hv
      have hnil := List.argmax_eq_none.mp harg
      have hf : (key, v) ∈ rules.filter fun r => r.1 <:+ name := by
        simp only [List.mem_filter, decide_eq_true_eq]
        exact ⟨hmem, hk⟩
      rw [hnil] at hf
      exact absurd hf List.not_mem_nil
  | some best =>
      have hbest := List.argmax_mem harg
      simp only [List.mem_filter, decide_eq_true_eq] at hbest
      have hhit := (htab best.1 hbest.2 (hne best hbest.1) best.2).mpr hbest.1
      rw [Option.map_some]
      cases hft : firstTail t name with
      | none =>
          rw [firstTail_eq_none_iff.mp hft best.1 hbest.2 (hne best hbest.1)] at hhit
          simp only [reduceCtorEq] at hhit
      | some v =>
          -- Both winners are suffixes of one list and neither is shorter, so they are one key.
          rcases firstTail_eq_some hft with ⟨key, hk, hkne, hv, hmax⟩
          have hle : best.1.length ≤ key.length :=
            hmax best.1 hbest.2 (hne best hbest.1) (by rw [hhit]; exact Option.some_ne_none _)
          have hin : (key, v) ∈ rules.filter fun r => r.1 <:+ name := by
            simp only [List.mem_filter, decide_eq_true_eq]
            exact ⟨(htab key hk hkne v).mp hv, hk⟩
          have hge : key.length ≤ best.1.length :=
            List.le_of_mem_argmax (f := fun r : List α × β => r.1.length) hin harg
          have heq : key = best.1 :=
            (List.suffix_of_suffix_length_le hk hbest.2 hge).eq_of_length (by omega)
          rw [← hv, heq, hhit]

-- The longest of the rules with their values mapped.
theorem argmax_mapValue {γ : Type*} (f : β → γ) (rules : List (List α × β)) :
    (rules.map fun r => (r.1, f r.2)).argmax (fun r => r.1.length) =
      (rules.argmax fun r => r.1.length).map fun r => (r.1, f r.2) := by
  induction rules using List.reverseRecOn with
  | nil => rfl
  | append_singleton rules r ih =>
      rw [List.map_append, List.map_singleton, List.argmax_concat, List.argmax_concat, ih]
      cases rules.argmax fun r => r.1.length with
      | none => rfl
      | some best =>
          dsimp only [Option.map_some]
          split
          · rfl
          · rfl

section LongestMatch

variable [DecidableEq α] {rules : List (List α × β)} {name : List α}

theorem longestMatch_congr {name' : List α}
    (h : ∀ r ∈ rules, r.1 <:+ name ↔ r.1 <:+ name') :
    longestMatch rules name = longestMatch rules name' := by
  rw [longestMatch, longestMatch,
    List.filter_congr fun r hr => decide_eq_decide.mpr (h r hr)]

theorem longestMatch_eq_none (h : longestMatch rules name = none) :
    ∀ r ∈ rules, ¬ r.1 <:+ name := by
  rw [longestMatch, Option.map_eq_none_iff, List.argmax_eq_none, List.filter_eq_nil_iff] at h
  exact fun r hr hs => h r hr (decide_eq_true hs)

-- The match is a rule, and no longer rule is a suffix of the name.
theorem longestMatch_eq_some {v : β} (h : longestMatch rules name = some v) :
    ∃ r ∈ rules, r.1 <:+ name ∧ r.2 = v ∧
      ∀ r' ∈ rules, r'.1 <:+ name → r'.1.length ≤ r.1.length := by
  rw [longestMatch, Option.map_eq_some_iff] at h
  rcases h with ⟨r, harg, hv⟩
  have hmem := List.argmax_mem harg
  simp only [List.mem_filter, decide_eq_true_eq] at hmem
  refine ⟨r, hmem.1, hmem.2, hv, fun r' hr' hs => ?_⟩
  have hin : r' ∈ rules.filter fun r => r.1 <:+ name := by
    simp only [List.mem_filter, decide_eq_true_eq]
    exact ⟨hr', hs⟩
  exact List.le_of_mem_argmax (f := fun r : List α × β => r.1.length) hin harg

theorem longestMatch_mapValue {γ : Type*} (f : β → γ) :
    longestMatch (rules.map fun r => (r.1, f r.2)) name = (longestMatch rules name).map f := by
  rw [longestMatch, longestMatch, List.filter_map, argmax_mapValue, Option.map_map, Option.map_map]
  rfl

-- A rule is the match for its own key.
theorem longestMatch_self {r : List α × β} (hr : r ∈ rules)
    (hfun : ∀ r' ∈ rules, r'.1 = r.1 → r'.2 = r.2) : longestMatch rules r.1 = some r.2 := by
  cases h : longestMatch rules r.1 with
  | none => exact absurd (List.suffix_refl r.1) (longestMatch_eq_none h r hr)
  | some v =>
      rcases longestMatch_eq_some h with ⟨r', hr', hsuf, rfl, hmax⟩
      have hle := hmax r hr (List.suffix_refl r.1)
      rw [hfun r' hr' (hsuf.eq_of_length (Nat.le_antisymm hsuf.length_le hle))]

end LongestMatch

end DnsGateway.Reasoning
