import Mathlib.Data.Finmap

/-!
# Finite tables of bounded size

A `HashTable` is a finite map together with the proof that it respects its capacity.  Updates of a
present key always succeed; a new key needs a free slot.
-/

namespace DnsGateway.Reasoning

variable {K V : Type} [DecidableEq K]

/-! ## Key sets of finite maps -/

theorem keys_insert (m : Finmap fun _ : K => V) (k : K) (v : V) :
    (m.insert k v).keys = insert k m.keys := by
  ext x
  simp only [Finmap.mem_keys, Finmap.mem_insert, Finset.mem_insert]

theorem card_keys_insert_of_mem {m : Finmap fun _ : K => V} {k : K} (v : V) (hk : k ∈ m) :
    (m.insert k v).keys.card = m.keys.card := by
  rw [keys_insert, Finset.insert_eq_self.mpr (Finmap.mem_keys.mpr hk)]

theorem card_keys_insert_le (m : Finmap fun _ : K => V) (k : K) (v : V) :
    (m.insert k v).keys.card ≤ m.keys.card + 1 := by
  rw [keys_insert]
  exact Finset.card_insert_le k m.keys

theorem card_keys_erase_le (m : Finmap fun _ : K => V) (k : K) :
    (m.erase k).keys.card ≤ m.keys.card := by
  rw [Finmap.keys_erase]
  exact Finset.card_erase_le

theorem card_keys_erase_of_mem {m : Finmap fun _ : K => V} {k : K} (hk : k ∈ m) :
    (m.erase k).keys.card + 1 = m.keys.card := by
  rw [Finmap.keys_erase]
  exact Finset.card_erase_add_one (Finmap.mem_keys.mpr hk)

theorem erase_insert_self (m : Finmap fun _ : K => V) (k : K) (v : V) :
    (m.insert k v).erase k = m.erase k := by
  apply Finmap.ext_lookup
  intro x
  by_cases hx : x = k
  · subst hx
    rw [Finmap.lookup_erase, Finmap.lookup_erase]
  · rw [Finmap.lookup_erase_ne hx, Finmap.lookup_erase_ne hx, Finmap.lookup_insert_of_ne _ hx]

theorem erase_eq_self_iff {m : Finmap fun _ : K => V} {k : K} :
    m.erase k = m ↔ m.lookup k = none := by
  constructor
  · intro h
    rw [← h]
    exact Finmap.lookup_erase k m
  · intro h
    apply Finmap.ext_lookup
    intro x
    by_cases hx : x = k
    · rw [hx, Finmap.lookup_erase, h]
    · exact Finmap.lookup_erase_ne hx

theorem lookup_erase_some {m : Finmap fun _ : K => V} {k x : K} {v : V}
    (h : (m.erase k).lookup x = some v) : x ≠ k ∧ m.lookup x = some v := by
  by_cases hx : x = k
  · rw [hx, Finmap.lookup_erase] at h
    cases h
  · rw [Finmap.lookup_erase_ne hx] at h
    exact ⟨hx, h⟩

theorem lookup_insert_some {m : Finmap fun _ : K => V} {k x : K} {v w : V}
    (h : (m.insert k v).lookup x = some w) : x = k ∧ w = v ∨ x ≠ k ∧ m.lookup x = some w := by
  by_cases hx : x = k
  · rw [hx, Finmap.lookup_insert] at h
    exact Or.inl ⟨hx, (Option.some.inj h).symm⟩
  · rw [Finmap.lookup_insert_of_ne _ hx] at h
    exact Or.inr ⟨hx, h⟩

theorem foldl_erase_lookup (m : Finmap fun _ : K => V) (ks : List K) (x : K) :
    (ks.foldl (fun m k => m.erase k) m).lookup x = if x ∈ ks then none else m.lookup x := by
  induction ks generalizing m with
  | nil => exact (if_neg List.not_mem_nil).symm
  | cons k ks ih =>
      rw [List.foldl_cons, ih]
      by_cases hks : x ∈ ks
      · rw [if_pos hks, if_pos (List.mem_cons_of_mem k hks)]
      · rw [if_neg hks]
        by_cases hx : x = k
        · rw [hx, Finmap.lookup_erase, if_pos List.mem_cons_self]
        · rw [Finmap.lookup_erase_ne hx, if_neg (List.not_mem_cons_of_ne_of_not_mem hx hks)]

theorem lookup_insert_fresh {m : Finmap fun _ : K => V} {k : K} (h : m.lookup k = none)
    {x : K} {v w : V} :
    (m.insert k v).lookup x = some w ↔ x = k ∧ w = v ∨ m.lookup x = some w := by
  constructor
  · intro hx
    exact (lookup_insert_some hx).imp_right And.right
  · rintro (⟨rfl, rfl⟩ | hx)
    · exact Finmap.lookup_insert m
    · have hne : x ≠ k := by
        rintro rfl
        rw [h] at hx
        cases hx
      rw [Finmap.lookup_insert_of_ne _ hne, hx]

theorem ne_empty_iff {m : Finmap fun _ : K => V} : m ≠ ∅ ↔ ∃ k v, m.lookup k = some v := by
  constructor
  · intro h
    by_contra hnone
    apply h
    apply Finmap.ext_lookup
    intro k
    cases hk : m.lookup k with
    | none => rw [Finmap.lookup_empty]
    | some v => exact absurd ⟨k, v, hk⟩ hnone
  · rintro ⟨k, v, h⟩ rfl
    rw [Finmap.lookup_empty] at h
    cases h

/-! ## Bounded tables -/

/-- A finite map with at most `cap` entries. -/
structure HashTable (cap : Nat) (K V : Type) [DecidableEq K] where
  entries : Finmap fun _ : K => V
  size_le : entries.keys.card ≤ cap

namespace HashTable

variable {cap : Nat}

def empty : HashTable cap K V := ⟨∅, by rw [Finmap.keys_empty, Finset.card_empty]; omega⟩

def lookup (t : HashTable cap K V) (k : K) : Option V := t.entries.lookup k

def size (t : HashTable cap K V) : Nat := t.entries.keys.card

/-- Add or replace the entry of `k`; fails exactly when `k` is new and the table is full. -/
def update (t : HashTable cap K V) (k : K) (v : V) : Option (HashTable cap K V) :=
  if h : k ∈ t.entries ∨ t.size < cap then
    some ⟨t.entries.insert k v, by
      rcases h with hk | hlt
      · rw [card_keys_insert_of_mem v hk]
        exact t.size_le
      · exact (card_keys_insert_le t.entries k v).trans hlt⟩
  else none

/-- Remove the entry of `k`; fails when there is none. -/
def delete (t : HashTable cap K V) (k : K) : Option (HashTable cap K V) :=
  if k ∈ t.entries then
    some ⟨t.entries.erase k, (card_keys_erase_le t.entries k).trans t.size_le⟩
  else none

@[ext] theorem ext {s t : HashTable cap K V} (h : ∀ k, s.lookup k = t.lookup k) : s = t := by
  rcases s with ⟨se, hs⟩
  rcases t with ⟨te, ht⟩
  have he : se = te := Finmap.ext_lookup h
  subst he
  rfl

@[simp] theorem lookup_empty (k : K) : (empty : HashTable cap K V).lookup k = none := rfl

theorem mem_iff_lookup {t : HashTable cap K V} {k : K} :
    k ∈ t.entries ↔ t.lookup k ≠ none := by
  rw [lookup, ne_eq, Finmap.lookup_eq_none, not_not]

theorem update_lookup {t t' : HashTable cap K V} {k : K} {v : V} (h : t.update k v = some t')
    (x : K) : t'.lookup x = if x = k then some v else t.lookup x := by
  unfold update at h
  split at h
  · cases h
    split
    · rename_i hx
      subst hx
      exact Finmap.lookup_insert t.entries
    · rename_i hx
      exact Finmap.lookup_insert_of_ne t.entries hx
  · cases h

theorem update_eq_none_iff {t : HashTable cap K V} {k : K} {v : V} :
    t.update k v = none ↔ t.lookup k = none ∧ t.size = cap := by
  have hle : t.size ≤ cap := t.size_le
  rw [update]
  split
  · rename_i h
    refine ⟨fun hn => (by cases hn), fun hn => ?_⟩
    rcases h with hk | hlt
    · exact absurd hn.1 (mem_iff_lookup.mp hk)
    · omega
  · rename_i h
    rw [mem_iff_lookup, not_or, not_not] at h
    exact ⟨fun _ => ⟨h.1, by omega⟩, fun _ => rfl⟩

theorem delete_lookup {t t' : HashTable cap K V} {k : K} (h : t.delete k = some t') (x : K) :
    t'.lookup x = if x = k then none else t.lookup x := by
  unfold delete at h
  split at h
  · cases h
    split
    · rename_i hx
      subst hx
      exact Finmap.lookup_erase x t.entries
    · rename_i hx
      exact Finmap.lookup_erase_ne hx
  · cases h

theorem delete_eq_none_iff {t : HashTable cap K V} {k : K} :
    t.delete k = none ↔ t.lookup k = none := by
  rw [delete]
  split
  · rename_i h
    exact ⟨fun hn => (by cases hn), fun hn => absurd hn (mem_iff_lookup.mp h)⟩
  · rename_i h
    rw [mem_iff_lookup, not_not] at h
    exact ⟨fun _ => h, fun _ => rfl⟩

-- A key outside the table leaves room: a set that covers the table and the key is larger.
theorem size_lt_of_missing {t : HashTable cap K V} {S : Finset K} {k : K}
    (hcover : ∀ x, t.lookup x ≠ none → x ∈ S) (hk : k ∈ S) (hmiss : t.lookup k = none) :
    t.size < S.card := by
  apply Finset.card_lt_card
  refine ⟨fun x hx => hcover x (mem_iff_lookup.mp (Finmap.mem_keys.mp hx)), fun hsub => ?_⟩
  exact mem_iff_lookup.mp (Finmap.mem_keys.mp (hsub hk)) hmiss

/-! ### On the way from one content to another -/

/-- Every key is still as in `old` or already as in `goal`. -/
def Between (old goal : K → Option V) (t : HashTable cap K V) : Prop :=
  ∀ k, t.lookup k = old k ∨ t.lookup k = goal k

theorem Between.update {old goal : K → Option V} {t t' : HashTable cap K V} {k : K} {v : V}
    (h : t.Between old goal) (hu : t.update k v = some t') (hgoal : goal k = some v) :
    t'.Between old goal := by
  intro x
  rw [update_lookup hu]
  split
  · rename_i hx
    subst hx
    exact Or.inr hgoal.symm
  · exact h x

theorem Between.delete {old goal : K → Option V} {t t' : HashTable cap K V} {k : K}
    (h : t.Between old goal) (hd : t.delete k = some t') (hgoal : goal k = none) :
    t'.Between old goal := by
  intro x
  rw [delete_lookup hd]
  split
  · rename_i hx
    subst hx
    exact Or.inr hgoal.symm
  · exact h x

end HashTable

/-! ## Iteration orders -/

/-- An order in which an iteration visits the entries of a finite map: each entry once. -/
structure RangeOrder (K V : Type) [DecidableEq K] where
  visit : (Finmap fun _ : K => V) → List (K × V)
  nodup : ∀ m, ((visit m).map Prod.fst).Nodup
  mem_iff : ∀ m k v, (k, v) ∈ visit m ↔ m.lookup k = some v

theorem RangeOrder.visit_empty (o : RangeOrder K V) : o.visit ∅ = [] := by
  apply List.eq_nil_iff_forall_not_mem.mpr
  rintro ⟨k, v⟩ h
  have hlookup := (o.mem_iff ∅ k v).mp h
  rw [Finmap.lookup_empty] at hlookup
  cases hlookup

theorem RangeOrder.visit_single (o : RangeOrder K V) (k : K) (v : V) :
    o.visit ((∅ : Finmap fun _ : K => V).insert k v) = [(k, v)] := by
  have hmem : ∀ e, e ∈ o.visit ((∅ : Finmap fun _ : K => V).insert k v) ↔ e = (k, v) := by
    rintro ⟨k', v'⟩
    rw [o.mem_iff, Prod.mk.injEq]
    by_cases hk : k' = k
    · subst hk
      rw [Finmap.lookup_insert, Option.some.injEq, eq_comm]
      exact (and_iff_right rfl).symm
    · rw [Finmap.lookup_insert_of_ne _ hk, Finmap.lookup_empty]
      simp [hk]
  have hnodup : (o.visit ((∅ : Finmap fun _ : K => V).insert k v)).Nodup := (o.nodup _).of_map _
  have hlist := List.eq_replicate_of_mem fun e he => (hmem e).mp he
  rw [hlist] at hnodup hmem ⊢
  have hpos := List.length_pos_of_mem ((hmem (k, v)).mpr rfl)
  rw [List.nodup_replicate] at hnodup
  rw [List.length_replicate] at hpos
  rw [show (o.visit ((∅ : Finmap fun _ : K => V).insert k v)).length = 1 by omega]
  rfl

-- Erasing every key that is visited leaves nothing.
theorem RangeOrder.erase_visited (o : RangeOrder K V) (m : Finmap fun _ : K => V) :
    ((o.visit m).map Prod.fst).foldl (fun m k => m.erase k) m = ∅ := by
  apply Finmap.ext_lookup
  intro k
  rw [Finmap.lookup_empty, foldl_erase_lookup]
  cases hk : m.lookup k with
  | none => exact ite_self _
  | some v => exact if_pos (List.mem_map.mpr ⟨(k, v), (o.mem_iff m k v).mpr hk, rfl⟩)

/-- There is such an order: the entries are a multiset, and a multiset can be listed. -/
noncomputable instance : Inhabited (RangeOrder K V) where
  default :=
    { visit := fun m => m.entries.toList.map fun e => (e.1, e.2)
      nodup := fun m => by
        rw [List.map_map]
        change (m.entries.toList.map Sigma.fst).Nodup
        rw [← Multiset.coe_nodup, ← Multiset.map_coe, Multiset.coe_toList]
        exact m.keys.nodup
      mem_iff := fun m k v => by
        rw [List.mem_map, Finmap.lookup_eq_some_iff]
        constructor
        · rintro ⟨e, he, hkv⟩
          cases hkv
          exact Multiset.mem_toList.mp he
        · exact fun h => ⟨⟨k, v⟩, Multiset.mem_toList.mpr h, rfl⟩ }

end DnsGateway.Reasoning
