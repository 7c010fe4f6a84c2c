import Mathlib.Data.List.GetD
import Mathlib.Data.Nat.ModEq
import DnsGateway.Reasoning.Bytes

/-!
# The Internet checksum, updated in place

One's-complement arithmetic on 32-bit partial sums, and the incremental update of a 16-bit
checksum field when a 32-bit word it covers changes.  Everything is a statement modulo `0xFFFF`,
except that one's-complement addition has two zeros: a sum is `0` only when all its terms are, and
`0xFFFF` otherwise.
-/

namespace DnsGateway.Reasoning

/-- 32-bit addition with end-around carry. -/
def csumAdd (a b : UInt32) : UInt32 :=
  let res := a + b
  res + (if res < b then 1 else 0)

def csumSub (a b : UInt32) : UInt32 := csumAdd a (~~~ b)

/-- Fold a partial sum to 16 bits and complement it. -/
def csumFold (sum : UInt32) : UInt16 :=
  let sum := (sum &&& (0xFFFF : UInt32)) + (sum >>> 16)
  let sum := (sum &&& (0xFFFF : UInt32)) + (sum >>> 16)
  (~~~ sum).toUInt16

/-- The checksum field after a covered word changed from `old` to `new`. -/
def csumReplace4 (check : UInt16) (old new : UInt32) : UInt16 :=
  csumFold (csumAdd (csumSub (~~~ check.toUInt32) old) new)

/-! ## One's-complement representatives -/

/-- The one's-complement value of an unbounded sum: its residue modulo `0xFFFF`, with `0xFFFF` for
the zero of a sum that has a term. -/
def onesOf (n : Nat) : Nat := if n = 0 then 0 else (n - 1) % 0xFFFF + 1

theorem onesOf_zero_iff (n : Nat) : onesOf n = 0 ↔ n = 0 := by
  unfold onesOf
  by_cases hn : n = 0 <;> simp [hn]

theorem onesOf_le (n : Nat) : onesOf n ≤ 0xFFFF := by
  unfold onesOf
  by_cases hn : n = 0
  · simp [hn]
  · rw [if_neg hn]
    omega

theorem onesOf_modEq (n : Nat) : onesOf n ≡ n [MOD 0xFFFF] := by
  unfold onesOf
  by_cases hn : n = 0
  · rw [if_pos hn, hn]
  · rw [if_neg hn]
    have h := (Nat.mod_modEq (n - 1) 0xFFFF).add_right 1
    rwa [Nat.sub_add_cancel (by omega)] at h

-- Range, residue and zero determine the representative.
theorem eq_onesOf {r n : Nat} (hle : r ≤ 0xFFFF) (hmod : r ≡ n [MOD 0xFFFF])
    (hzero : r = 0 ↔ n = 0) : r = onesOf n := by
  have hle' := onesOf_le n
  have hzero' := onesOf_zero_iff n
  have h : r % 0xFFFF = onesOf n % 0xFFFF := hmod.trans (onesOf_modEq n).symm
  omega

/-! ## The incremental update -/

theorem csumAdd_toNat (a b : UInt32) :
    (csumAdd a b).toNat =
      if a.toNat + b.toNat < 2 ^ 32 then a.toNat + b.toNat else a.toNat + b.toNat - 0xFFFFFFFF := by
  have ha := a.toNat_lt
  have hb := b.toNat_lt
  have hsum : (a + b).toNat = (a.toNat + b.toNat) % 2 ^ 32 := UInt32.toNat_add a b
  unfold csumAdd
  by_cases hc : a.toNat + b.toNat < 2 ^ 32
  · have hn : ¬ (a + b < b) := by rw [UInt32.lt_iff_toNat_lt, hsum]; omega
    simp only [hn, if_false, hc, if_true, UInt32.add_zero]
    omega
  · have hn : a + b < b := by rw [UInt32.lt_iff_toNat_lt, hsum]; omega
    simp only [hn, if_true, hc, if_false]
    rw [UInt32.toNat_add, hsum]
    change ((a.toNat + b.toNat) % 2 ^ 32 + 1) % 2 ^ 32 = _
    omega

-- Moving the high half onto the low half keeps the residue.
theorem halves_modEq (n : Nat) : n % 2 ^ 16 + n / 2 ^ 16 ≡ n [MOD 0xFFFF] := by
  have hn : n = n % 2 ^ 16 + n / 2 ^ 16 + 0xFFFF * (n / 2 ^ 16) := by omega
  conv_rhs => rw [hn]
  exact (Nat.add_mul_mod_self_left _ _ _).symm

-- Two rounds of folding take any partial sum to 16 bits.
theorem csumFold_toNat (s : UInt32) : (csumFold s).toNat = 0xFFFF - onesOf s.toNat := by
  have hs := s.toNat_lt
  have hround : ∀ x : UInt32, ((x &&& (0xFFFF : UInt32)) + (x >>> 16)).toNat =
      x.toNat % 2 ^ 16 + x.toNat / 2 ^ 16 := by
    intro x
    have hx := x.toNat_lt
    rw [UInt32.toNat_add, UInt32.toNat_and, UInt32.toNat_shiftRight]
    change ((x.toNat &&& (2 ^ 16 - 1)) + x.toNat >>> 16) % 2 ^ 32 = _
    rw [Nat.and_two_pow_sub_one_eq_mod, Nat.shiftRight_eq_div_pow]
    omega
  have hfold : (s.toNat % 2 ^ 16 + s.toNat / 2 ^ 16) % 2 ^ 16 +
      (s.toNat % 2 ^ 16 + s.toNat / 2 ^ 16) / 2 ^ 16 = onesOf s.toNat :=
    eq_onesOf (by omega) ((halves_modEq _).trans (halves_modEq _)) (by omega)
  have hle := onesOf_le s.toNat
  unfold csumFold
  dsimp only
  rw [UInt32.toNat_toUInt16, UInt32.toNat_not, hround, hround, hfold]
  change (2 ^ 32 - 1 - onesOf s.toNat) % 2 ^ 16 = _
  omega

theorem csumAdd_modEq (a b : UInt32) :
    (csumAdd a b).toNat ≡ a.toNat + b.toNat [MOD 0xFFFF] := by
  rw [csumAdd_toNat]
  by_cases hc : a.toNat + b.toNat < 2 ^ 32
  · rw [if_pos hc]
  · rw [if_neg hc]
    unfold Nat.ModEq
    omega

-- The update keeps the field and the word it covers in balance, and never ends in `0xFFFF`.
theorem csumReplace4_spec (check : UInt16) (old new : UInt32) :
    (csumReplace4 check old new).toNat < 0xFFFF ∧
      (csumReplace4 check old new).toNat + new.toNat ≡ check.toNat + old.toNat [MOD 0xFFFF] := by
  have hc := check.toNat_lt
  have ho := old.toNat_lt
  have hn := new.toNat_lt
  have hinv : (~~~ check.toUInt32).toNat = 2 ^ 32 - 1 - check.toNat := by
    rw [UInt32.toNat_not, UInt16.toNat_toUInt32]
    rfl
  have hold : (~~~ old).toNat = 2 ^ 32 - 1 - old.toNat := UInt32.toNat_not old
  have hsub := csumAdd_toNat (~~~ check.toUInt32) (~~~ old)
  have hadd := csumAdd_toNat (csumAdd (~~~ check.toUInt32) (~~~ old)) new
  have hmod1 : _ = _ := csumAdd_modEq (~~~ check.toUInt32) (~~~ old)
  have hmod2 : _ = _ := csumAdd_modEq (csumAdd (~~~ check.toUInt32) (~~~ old)) new
  rw [hinv, hold] at hsub hmod1
  -- The complemented field is never zero, so neither is the partial sum.
  have hpos : (csumAdd (csumAdd (~~~ check.toUInt32) (~~~ old)) new).toNat ≠ 0 := by
    rw [hadd]
    by_cases h1 : 2 ^ 32 - 1 - check.toNat + (2 ^ 32 - 1 - old.toNat) < 2 ^ 32
    · rw [if_pos h1] at hsub
      split <;> omega
    · rw [if_neg h1] at hsub
      split <;> omega
  unfold csumReplace4 csumSub
  rw [csumFold_toNat]
  generalize (csumAdd (csumAdd (~~~ check.toUInt32) (~~~ old)) new).toNat = s at hpos hmod2
  generalize (csumAdd (~~~ check.toUInt32) (~~~ old)).toNat = t at hmod1 hmod2
  have hzero := onesOf_zero_iff s
  have hle := onesOf_le s
  have hres : _ = _ := onesOf_modEq s
  constructor
  · omega
  · unfold Nat.ModEq
    omega

/-- Replacing `old` by `new` and back restores the field, up to the second zero. -/
theorem csumReplace4_swap (check : UInt16) (old new : UInt32) :
    csumReplace4 (csumReplace4 check old new) new old = if check = 0xFFFF then 0 else check := by
  obtain ⟨-, hto⟩ := csumReplace4_spec check old new
  obtain ⟨hlt, hback⟩ := csumReplace4_spec (csumReplace4 check old new) new old
  have hmod := Nat.ModEq.add_right_cancel' _ (hback.trans hto)
  have hc := check.toNat_lt
  apply UInt16.toNat_inj.mp
  unfold Nat.ModEq at hmod
  by_cases hff : check = 0xFFFF
  · subst hff
    rw [if_pos rfl]
    change _ = 0
    change _ % 0xFFFF = 0xFFFF % 0xFFFF at hmod
    omega
  · have hne : check.toNat ≠ 0xFFFF := fun h => hff (UInt16.toNat_inj.mp h)
    rw [if_neg hff]
    omega

/-! ## Sums over byte strings -/

/-- 16-bit addition with end-around carry. -/
def onesAdd (a b : Nat) : Nat := if a + b > 0xFFFF then a + b - 0xFFFF else a + b

/-- The one's-complement sum of the 16-bit words of a byte string, an odd last byte padded by a
zero, on top of `acc`. -/
def onesSum : Nat → List UInt8 → Nat
  | acc, [] => acc
  | acc, [b] => onesAdd acc b.toNat
  | acc, b0 :: b1 :: bs => onesSum (onesAdd acc (b0.toNat + 2 ^ 8 * b1.toNat)) bs

/-- A byte string that contains its own checksum is intact. -/
def Verifies (bs : List UInt8) : Prop := onesSum 0 bs = 0xFFFF

instance (bs : List UInt8) : Decidable (Verifies bs) := inferInstanceAs (Decidable (_ = _))

/-- The same words, added up without carry. -/
def wordSum : List UInt8 → Nat
  | [] => 0
  | [b] => b.toNat
  | b0 :: b1 :: bs => b0.toNat + 2 ^ 8 * b1.toNat + wordSum bs

theorem onesAdd_spec {a b : Nat} (ha : a ≤ 0xFFFF) (hb : b ≤ 0xFFFF) :
    onesAdd a b = onesOf (a + b) := by
  apply eq_onesOf
  · unfold onesAdd
    split <;> omega
  · unfold onesAdd Nat.ModEq
    split <;> omega
  · unfold onesAdd
    split <;> omega

-- Adding to a representative is adding to what it represents.
theorem onesOf_add (m n : Nat) : onesOf (onesOf m + n) = onesOf (m + n) := by
  have hzero := onesOf_zero_iff m
  have hzero' := onesOf_zero_iff (onesOf m + n)
  apply eq_onesOf (onesOf_le _)
  · exact (onesOf_modEq _).trans ((onesOf_modEq m).add_right n)
  · omega

-- End-around carry computes the representative of the sum.
theorem onesSum_eq (acc : Nat) (bs : List UInt8) :
    onesSum (onesOf acc) bs = onesOf (acc + wordSum bs) := by
  induction bs using wordSum.induct generalizing acc with
  | case1 => rfl
  | case2 b =>
      have hb := b.toNat_lt
      rw [onesSum, wordSum, onesAdd_spec (onesOf_le acc) (by omega), onesOf_add]
  | case3 b0 b1 bs ih =>
      have h0 := b0.toNat_lt
      have h1 := b1.toNat_lt
      rw [onesSum, wordSum, onesAdd_spec (onesOf_le acc) (by omega), onesOf_add, ih,
        Nat.add_assoc]

theorem verifies_iff (bs : List UInt8) :
    Verifies bs ↔ wordSum bs ≠ 0 ∧ wordSum bs ≡ 0 [MOD 0xFFFF] := by
  have hsum := onesSum_eq 0 bs
  rw [Nat.zero_add] at hsum
  have hle := onesOf_le (wordSum bs)
  have hzero := onesOf_zero_iff (wordSum bs)
  have hmod : _ = _ := onesOf_modEq (wordSum bs)
  change onesSum (onesOf 0) bs = 0xFFFF ↔ _
  rw [hsum]
  unfold Nat.ModEq
  omega

/-! ## Words in place -/

theorem wordSum_append {as : List UInt8} (heven : as.length % 2 = 0) (bs : List UInt8) :
    wordSum (as ++ bs) = wordSum as + wordSum bs := by
  induction as using wordSum.induct with
  | case1 => simp only [List.nil_append, wordSum, Nat.zero_add]
  | case2 b => simp at heven
  | case3 b0 b1 as ih =>
      have htail : as.length % 2 = 0 := by simp only [List.length_cons] at heven; omega
      simp only [List.cons_append, wordSum, ih htail]
      omega

-- An aligned store exchanges the words of its window.
theorem wordSum_overwrite {bs w : List UInt8} {off : Nat} (hin : off + w.length ≤ bs.length)
    (hoff : off % 2 = 0) (hw : w.length % 2 = 0) :
    wordSum (overwrite bs off w) + wordSum (window bs off w.length) = wordSum bs + wordSum w := by
  have htake : (bs.take off).length = off := by rw [List.length_take]; omega
  have hbs : bs = bs.take off ++ (window bs off w.length ++ bs.drop (off + w.length)) := by
    rw [window, ← List.drop_drop, List.take_append_drop, List.take_append_drop]
  have hold : wordSum bs =
      wordSum (bs.take off) + (wordSum (window bs off w.length) +
        wordSum (bs.drop (off + w.length))) := by
    conv_lhs => rw [hbs]
    rw [wordSum_append (by omega), wordSum_append (by rw [window_length hin]; exact hw)]
  have hnew : wordSum (overwrite bs off w) =
      wordSum (bs.take off) + (wordSum w + wordSum (bs.drop (off + w.length))) := by
    rw [overwrite, List.append_assoc, wordSum_append (by omega), wordSum_append hw]
  omega

-- The same for the words of a window around the store.
theorem wordSum_window_overwrite {bs : List UInt8} (w : List UInt8) (lo n off : Nat)
    (hlo : lo ≤ off) (hhi : off + w.length ≤ lo + n) (hin : lo + n ≤ bs.length)
    (halign : (off - lo) % 2 = 0) (hw : w.length % 2 = 0) :
    wordSum (window (overwrite bs off w) lo n) + wordSum (window bs off w.length) =
      wordSum (window bs lo n) + wordSum w := by
  have hlen := window_length hin
  rw [window_overwrite_inside hlo hhi hin, ← window_window hlo hhi]
  exact wordSum_overwrite (by omega) halign hw

theorem wordSum_window_ne_zero {bs : List UInt8} {lo n : Nat} (hb : byteAt bs lo ≠ 0)
    (hn : 0 < n) : wordSum (window bs lo n) ≠ 0 := by
  have hlt : lo < bs.length := by
    by_contra hge
    exact hb (by rw [byteAt, List.getD_eq_default _ _ (by omega)])
  rw [byteAt, List.getD_eq_getElem _ _ hlt] at hb
  have hpos : bs[lo].toNat ≠ 0 := fun h => hb (UInt8.toNat_inj.mp h)
  obtain ⟨k, rfl⟩ : ∃ k, n = k + 1 := ⟨n - 1, by omega⟩
  rw [window, List.drop_eq_getElem_cons hlt, List.take_succ_cons]
  cases (bs.drop (lo + 1)).take k with
  | nil => exact hpos
  | cons b rest =>
      rw [wordSum]
      omega

theorem wordSum_u16ToLE (c : UInt16) : wordSum (u16ToLE c) = c.toNat := by
  have hc := c.toNat_lt
  simp only [u16ToLE, wordSum, UInt8.toNat_ofNat']
  omega

theorem wordSum_u32ToLE (w : UInt32) : wordSum (u32ToLE w) ≡ w.toNat [MOD 0xFFFF] := by
  have hw := w.toNat_lt
  have hsum : wordSum (u32ToLE w) = w.toNat % 2 ^ 16 + w.toNat / 2 ^ 16 := by
    simp only [u32ToLE, wordSum, UInt8.toNat_ofNat']
    omega
  rw [hsum]
  exact halves_modEq w.toNat

end DnsGateway.Reasoning
