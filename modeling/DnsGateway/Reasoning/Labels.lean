import Mathlib.Data.Vector.Basic
import DnsGateway.Reasoning.Bytes

/-!
# Length-prefixed names

A name is a list of labels; on the wire each label is a length byte followed by its bytes, and the
name ends in a zero byte.  Labels of 1 to 63 bytes make the encoding self-delimiting, which is
what lets a byte comparison of (padded) encodings stand for a comparison of label lists.
-/

namespace DnsGateway.Reasoning

/-- Every label has a length that its length byte can carry and that is not the terminator. -/
def LabelsOk (ls : List (List UInt8)) : Prop := ∀ l ∈ ls, 1 ≤ l.length ∧ l.length ≤ 63

instance (ls : List (List UInt8)) : Decidable (LabelsOk ls) :=
  inferInstanceAs (Decidable (∀ l ∈ ls, 1 ≤ l.length ∧ l.length ≤ 63))

/-- The encoded labels, without the terminator. -/
def wireBody : List (List UInt8) → List UInt8
  | [] => []
  | l :: ls => UInt8.ofNat l.length :: (l ++ wireBody ls)

/-- The complete wire format of a name. -/
def wireName (ls : List (List UInt8)) : List UInt8 := wireBody ls ++ [0]

/-- The offsets at which the labels of `ls` start when the first of them starts at `pos`. -/
def offsetsFrom (pos : Nat) : List (List UInt8) → List Nat
  | [] => []
  | l :: ls => pos :: offsetsFrom (pos + 1 + l.length) ls

/-- Zero-padding to a fixed buffer size. -/
def padded (n : Nat) (bs : List UInt8) : List UInt8 := bs ++ List.replicate (n - bs.length) 0

/-! ## Sizes and positions -/

theorem LabelsOk.head {l : List UInt8} {ls : List (List UInt8)} (h : LabelsOk (l :: ls)) :
    1 ≤ l.length ∧ l.length ≤ 63 := h l List.mem_cons_self

theorem LabelsOk.tail {l : List UInt8} {ls : List (List UInt8)} (h : LabelsOk (l :: ls)) :
    LabelsOk ls := fun x hx => h x (List.mem_cons_of_mem l hx)

theorem LabelsOk.drop {ls : List (List UInt8)} (h : LabelsOk ls) (i : Nat) :
    LabelsOk (ls.drop i) := fun x hx => h x (List.mem_of_mem_drop hx)

theorem lengthByte_toNat {l : List UInt8} (h : l.length ≤ 63) :
    (UInt8.ofNat l.length).toNat = l.length := by
  rw [UInt8.toNat_ofNat']
  omega

theorem lengthByte_ne_zero {l : List UInt8} (h : 1 ≤ l.length ∧ l.length ≤ 63) :
    UInt8.ofNat l.length ≠ 0 := by
  intro hz
  have hn := lengthByte_toNat h.2
  rw [hz] at hn
  have hlen : l.length = 0 := hn.symm
  omega

theorem wireBody_append (ls ms : List (List UInt8)) :
    wireBody (ls ++ ms) = wireBody ls ++ wireBody ms := by
  induction ls with
  | nil => rfl
  | cons l ls ih => simp only [List.cons_append, wireBody, ih, List.append_assoc]

theorem wireBody_cons_length (l : List UInt8) (ls : List (List UInt8)) :
    (wireBody (l :: ls)).length = 1 + l.length + (wireBody ls).length := by
  simp only [wireBody, List.length_cons, List.length_append]
  omega

theorem wireName_length (ls : List (List UInt8)) :
    (wireName ls).length = (wireBody ls).length + 1 := by
  rw [wireName, List.length_append, List.length_singleton]

theorem two_mul_length_le_wireBody {ls : List (List UInt8)} (h : LabelsOk ls) :
    2 * ls.length ≤ (wireBody ls).length := by
  induction ls with
  | nil => exact Nat.zero_le _
  | cons l ls ih =>
      have hl := h.head
      have hrest := ih h.tail
      rw [wireBody_cons_length, List.length_cons]
      omega

-- Splitting off the first `i` labels.
theorem wireBody_take_drop (ls : List (List UInt8)) (i : Nat) :
    wireBody ls = wireBody (ls.take i) ++ wireBody (ls.drop i) := by
  rw [← wireBody_append, List.take_append_drop]

theorem offsetsFrom_length (pos : Nat) (ls : List (List UInt8)) :
    (offsetsFrom pos ls).length = ls.length := by
  induction ls generalizing pos with
  | nil => rfl
  | cons l ls ih => rw [offsetsFrom, List.length_cons, List.length_cons, ih]

-- The `i`-th label starts right after the encodings of the labels before it.
theorem offsetsFrom_getD (pos : Nat) (ls : List (List UInt8)) (i : Nat) (hi : i < ls.length) :
    (offsetsFrom pos ls).getD i 0 = pos + (wireBody (ls.take i)).length := by
  induction ls generalizing pos i with
  | nil => exact absurd hi (Nat.not_lt_zero _)
  | cons l ls ih =>
      cases i with
      | zero => rfl
      | succ i =>
          rw [List.length_cons] at hi
          rw [offsetsFrom, List.getD_cons_succ, ih _ _ (by omega), List.take_succ_cons,
            wireBody_cons_length]
          omega

/-! ## Self-delimitation -/

-- Of two encodings that agree as byte strings, the one with fewer labels is an initial piece of the
-- other.
theorem wireBody_extends {ls ms : List (List UInt8)} {x y : List UInt8} (hls : LabelsOk ls)
    (hms : LabelsOk ms) (hle : ls.length ≤ ms.length)
    (h : wireBody ls ++ x = wireBody ms ++ y) :
    ∃ more, ms = ls ++ more ∧ x = wireBody more ++ y := by
  induction ls generalizing ms with
  | nil => exact ⟨ms, rfl, by simpa only [wireBody, List.nil_append] using h⟩
  | cons l ls ih =>
      cases ms with
      | nil => exact absurd hle (by simp only [List.length_cons, List.length_nil]; omega)
      | cons m ms =>
          simp only [wireBody, List.cons_append, List.cons.injEq, List.append_assoc] at h
          have hlen : l.length = m.length := by
            rw [← lengthByte_toNat hls.head.2, ← lengthByte_toNat hms.head.2, h.1]
          rcases List.append_inj h.2 hlen with ⟨hlm, hrest⟩
          obtain ⟨more, hmore, hx⟩ := ih hls.tail hms.tail
            (by simpa only [List.length_cons, Nat.add_le_add_iff_right] using hle) hrest
          exact ⟨more, by rw [hlm, hmore, List.cons_append], hx⟩

theorem wireBody_cons_ne_zero {ls : List (List UInt8)} {x y : List UInt8} (hls : LabelsOk ls)
    (hne : ls ≠ []) : (0 : UInt8) :: x ≠ wireBody ls ++ y := by
  cases ls with
  | nil => exact absurd rfl hne
  | cons l ls =>
      intro h
      rw [wireBody, List.cons_append, List.cons.injEq] at h
      exact lengthByte_ne_zero hls.head h.1.symm

-- A terminated name is determined by any byte string it starts.
theorem wireBody_zero_inj {ls ms : List (List UInt8)} {x y : List UInt8} (hls : LabelsOk ls)
    (hms : LabelsOk ms) (h : wireBody ls ++ 0 :: x = wireBody ms ++ 0 :: y) :
    ls = ms ∧ x = y := by
  have close : ∀ {ls ms : List (List UInt8)} {x y : List UInt8}, LabelsOk ls → LabelsOk ms →
      ls.length ≤ ms.length → wireBody ls ++ 0 :: x = wireBody ms ++ 0 :: y → ls = ms ∧ x = y := by
    intro ls ms x y hls hms hle h
    rcases wireBody_extends hls hms hle h with ⟨more, hmore, hx⟩
    by_cases hnil : more = []
    · subst hnil
      rw [List.append_nil] at hmore
      rw [wireBody, List.nil_append, List.cons.injEq] at hx
      exact ⟨hmore.symm, hx.2⟩
    · have hok : LabelsOk more := fun l hl => hms l (hmore ▸ List.mem_append_right ls hl)
      exact absurd hx (wireBody_cons_ne_zero hok hnil)
  rcases Nat.le_total ls.length ms.length with hle | hle
  · exact close hls hms hle h
  · rcases close hms hls hle h.symm with ⟨he, hr⟩
    exact ⟨he.symm, hr.symm⟩

-- Padded encodings agree exactly when the label lists do.
theorem padded_wireName_inj {n : Nat} {ls ms : List (List UInt8)} (hls : LabelsOk ls)
    (hms : LabelsOk ms) : padded n (wireName ls) = padded n (wireName ms) ↔ ls = ms := by
  constructor
  · intro h
    simp only [padded, wireName, List.append_assoc, List.singleton_append] at h
    exact (wireBody_zero_inj hls hms h).1
  · intro h
    rw [h]

theorem padded_length {n : Nat} {bs : List UInt8} (h : bs.length ≤ n) :
    (padded n bs).length = n := by
  rw [padded, List.length_append, List.length_replicate]
  omega

theorem padded_getElem?_lt {n i : Nat} {bs : List UInt8} (hi : i < bs.length) :
    (padded n bs)[i]? = bs[i]? := by
  rw [padded, List.getElem?_append_left hi]

theorem padded_getElem?_ge {n i : Nat} {bs : List UInt8} (hlo : bs.length ≤ i) (hhi : i < n) :
    (padded n bs)[i]? = some 0 := by
  rw [padded, List.getElem?_append_right hlo, List.getElem?_replicate, if_pos (by omega)]

/-- A buffer of `n` bytes that holds `bs` and zeros. -/
def bufOf (n : Nat) (bs : List UInt8) : List.Vector UInt8 n :=
  ⟨(padded n bs).take n, by
    rw [List.length_take, padded, List.length_append, List.length_replicate]
    omega⟩

theorem bufOf_toList {n : Nat} {bs : List UInt8} (h : bs.length ≤ n) :
    (bufOf n bs).toList = padded n bs :=
  List.take_of_length_le (padded_length h).le

-- Buffers that hold complete names agree exactly when the label lists do.
theorem bufOf_wireName_inj {n : Nat} {ls ms : List (List UInt8)} (hls : LabelsOk ls)
    (hms : LabelsOk ms) (hl : (wireName ls).length ≤ n) (hm : (wireName ms).length ≤ n) :
    bufOf n (wireName ls) = bufOf n (wireName ms) ↔ ls = ms := by
  rw [← padded_wireName_inj (n := n) hls hms, ← bufOf_toList hl, ← bufOf_toList hm]
  exact Subtype.ext_iff

-- Labels that begin with the byte `b` and go on with zeros are one label of zeros.
theorem wireBody_zeros {l : List UInt8} {more : List (List UInt8)} {b : UInt8} {k : Nat}
    {y : List UInt8} (hls : LabelsOk (l :: more))
    (h : b :: List.replicate k 0 = wireBody (l :: more) ++ 0 :: y) :
    more = [] ∧ l = List.replicate b.toNat 0 := by
  rw [wireBody, List.cons_append, List.append_assoc, List.cons.injEq] at h
  have hzero : ∀ x ∈ l ++ (wireBody more ++ 0 :: y), x = 0 := by
    rw [← h.2]
    exact fun x hx => List.eq_of_mem_replicate hx
  constructor
  · cases more with
    | nil => rfl
    | cons m more =>
        exact absurd (hzero _ (by simp [wireBody])) (lengthByte_ne_zero hls.tail.head)
  · rw [h.1, lengthByte_toNat hls.head.2]
    exact List.eq_replicate_iff.mpr ⟨rfl, fun x hx => hzero x (List.mem_append_left _ hx)⟩

-- A label list whose bytes are those of `key`, the byte `b` and zeros.
theorem wireBody_closed {key ls : List (List UInt8)} {b : UInt8} {k : Nat} {y : List UInt8}
    (hkey : LabelsOk key) (hls : LabelsOk ls) (hb : b ≠ 0)
    (h : wireBody key ++ b :: List.replicate k 0 = wireBody ls ++ 0 :: y) :
    ls = key ++ [List.replicate b.toNat 0] := by
  rcases Nat.le_total key.length ls.length with hle | hle
  · rcases wireBody_extends hkey hls hle h with ⟨more, hmore, hrest⟩
    cases more with
    | nil =>
        rw [wireBody, List.nil_append, List.cons.injEq] at hrest
        exact absurd hrest.1 hb
    | cons l more =>
        have htail : LabelsOk (l :: more) := fun x hx =>
          hls x (by rw [hmore]; exact List.mem_append_right key hx)
        rcases wireBody_zeros htail hrest with ⟨hlast, hlabel⟩
        rw [hmore, hlast, hlabel]
  · rcases wireBody_extends hls hkey hle h.symm with ⟨more, hmore, hrest⟩
    cases more with
    | nil =>
        rw [wireBody, List.nil_append, List.cons.injEq] at hrest
        exact absurd hrest.1.symm hb
    | cons m more =>
        refine absurd hrest (wireBody_cons_ne_zero ?_ (List.cons_ne_nil m more))
        exact fun x hx => hkey x (by rw [hmore]; exact List.mem_append_right ls hx)

-- With another byte in the place of the terminator a buffer holds a complete name only when that
-- byte is the length of a last label of zeros.
theorem bufOf_closed_iff {n : Nat} {key ls : List (List UInt8)} {b : UInt8} (hkey : LabelsOk key)
    (hls : LabelsOk ls) (hb : b ≠ 0) (hk : (wireBody key).length + 1 ≤ n)
    (hl : (wireName ls).length ≤ n) :
    bufOf n (wireBody key ++ [b]) = bufOf n (wireName ls) ↔
      ls = key ++ [List.replicate b.toNat 0] := by
  have hbytes : bufOf n (wireBody key ++ [b]) = bufOf n (wireName ls) ↔
      wireBody key ++ b :: List.replicate (n - (wireBody key ++ [b]).length) 0 =
        wireBody ls ++ 0 :: List.replicate (n - (wireName ls).length) 0 := by
    rw [List.append_cons (wireBody key) b (List.replicate _ 0),
      List.append_cons (wireBody ls) 0 (List.replicate _ 0)]
    show _ ↔ padded n (wireBody key ++ [b]) = padded n (wireName ls)
    rw [← bufOf_toList (by simpa using hk), ← bufOf_toList hl]
    exact Subtype.ext_iff
  rw [hbytes]
  constructor
  · exact wireBody_closed hkey hls hb
  · intro h
    have hlen := congrArg List.length (congrArg wireBody h)
    rw [wireBody_append, List.length_append, wireBody_cons_length] at hlen
    simp only [List.length_replicate, wireBody, List.length_nil] at hlen
    rw [wireName_length] at hl ⊢
    rw [h, wireBody_append, List.append_assoc]
    congr 1
    simp only [wireBody, List.length_replicate, UInt8.ofNat_toNat, List.append_nil,
      List.cons_append, List.length_append, List.length_cons, List.length_nil]
    congr 1
    rw [← List.replicate_succ, List.replicate_append_replicate]
    congr 1
    omega

end DnsGateway.Reasoning
