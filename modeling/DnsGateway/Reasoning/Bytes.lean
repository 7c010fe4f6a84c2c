import Mathlib.Data.Finmap

/-!
# Byte strings, windows and little-endian words

A byte string is read and overwritten by window: `window` is a bounds-free read, `overwrite` an
in-place store.  Words are the little-endian readings of such windows.
-/

namespace DnsGateway.Reasoning

/-! ## Windows -/

def byteAt (bs : List UInt8) (i : Nat) : UInt8 := bs.getD i 0

def window (bs : List UInt8) (off n : Nat) : List UInt8 := (bs.drop off).take n

/-- Overwrite the window of `bs` that starts at `off` by `w`, keeping every other byte. -/
def overwrite (bs : List UInt8) (off : Nat) (w : List UInt8) : List UInt8 :=
  bs.take off ++ w ++ bs.drop (off + w.length)

theorem window_length {bs : List UInt8} {off n : Nat} (hin : off + n ≤ bs.length) :
    (window bs off n).length = n := by
  rw [window, List.length_take, List.length_drop]
  omega

theorem window_getElem? (bs : List UInt8) (off n i : Nat) (hi : i < n) :
    (window bs off n)[i]? = bs[off + i]? := by
  rw [window, List.getElem?_take_of_lt hi, List.getElem?_drop]

theorem byteAt_window (bs : List UInt8) (off n i : Nat) (hi : i < n) :
    byteAt (window bs off n) i = byteAt bs (off + i) := by
  rw [byteAt, byteAt, List.getD_eq_getElem?_getD, List.getD_eq_getElem?_getD,
    window_getElem? _ _ _ _ hi]

theorem window_congr {as bs : List UInt8} {off n : Nat}
    (h : ∀ i, off ≤ i → i < off + n → as[i]? = bs[i]?) : window as off n = window bs off n := by
  apply List.ext_getElem?
  intro i
  by_cases hi : i < n
  · rw [window_getElem? _ _ _ _ hi, window_getElem? _ _ _ _ hi]
    exact h _ (by omega) (by omega)
  · rw [window, window, List.getElem?_take_eq_none (by omega),
      List.getElem?_take_eq_none (by omega)]

theorem overwrite_length {bs w : List UInt8} {off : Nat} (hin : off + w.length ≤ bs.length) :
    (overwrite bs off w).length = bs.length := by
  simp only [overwrite, List.length_append, List.length_take, List.length_drop]
  omega

theorem overwrite_getElem?_outside {bs w : List UInt8} {off i : Nat}
    (hin : off + w.length ≤ bs.length) (hi : i < off ∨ off + w.length ≤ i) :
    (overwrite bs off w)[i]? = bs[i]? := by
  have htake : (bs.take off).length = off := by rw [List.length_take]; omega
  rw [overwrite, List.append_assoc]
  rcases hi with hi | hi
  · rw [List.getElem?_append_left (by omega), List.getElem?_take_of_lt hi]
  · rw [List.getElem?_append_right (by omega), List.getElem?_append_right (by omega),
      List.getElem?_drop]
    congr 1
    omega

theorem window_overwrite_same {bs w : List UInt8} {off : Nat}
    (hin : off + w.length ≤ bs.length) : window (overwrite bs off w) off w.length = w := by
  have htake : (bs.take off).length = off := by rw [List.length_take]; omega
  rw [window, overwrite, List.append_assoc, List.drop_append, htake, Nat.sub_self, List.drop_zero,
    List.drop_of_length_le (by omega), List.nil_append, List.take_left']
  rfl

theorem overwrite_getElem?_inside {bs w : List UInt8} {off i : Nat}
    (hin : off + w.length ≤ bs.length) (hlo : off ≤ i) (hhi : i < off + w.length) :
    (overwrite bs off w)[i]? = w[i - off]? := by
  have htake : (bs.take off).length = off := by rw [List.length_take]; omega
  rw [overwrite, List.append_assoc, List.getElem?_append_right (by omega),
    List.getElem?_append_left (by omega), htake]

-- A second store to the same window replaces the first.
theorem overwrite_overwrite {bs w w' : List UInt8} {off : Nat} (hlen : w'.length = w.length)
    (hin : off + w.length ≤ bs.length) :
    overwrite (overwrite bs off w) off w' = overwrite bs off w' := by
  have hin' : off + w'.length ≤ (overwrite bs off w).length := by rw [overwrite_length hin]; omega
  apply List.ext_getElem?
  intro i
  by_cases hi : off ≤ i ∧ i < off + w'.length
  · rw [overwrite_getElem?_inside hin' hi.1 hi.2,
      overwrite_getElem?_inside (by omega) hi.1 hi.2]
  · rw [overwrite_getElem?_outside hin' (by omega), overwrite_getElem?_outside hin (by omega),
      overwrite_getElem?_outside (by omega) (by omega)]

theorem overwrite_window {bs : List UInt8} {off n : Nat} (hin : off + n ≤ bs.length) :
    overwrite bs off (window bs off n) = bs := by
  have hlen := window_length hin
  apply List.ext_getElem?
  intro i
  by_cases hi : off ≤ i ∧ i < off + n
  · rw [overwrite_getElem?_inside (by omega) hi.1 (by omega),
      window_getElem? _ _ _ _ (by omega), Nat.add_sub_cancel' hi.1]
  · exact overwrite_getElem?_outside (by omega) (by omega)

-- A store inside a window is a store into what the window shows.
theorem window_overwrite_inside {bs w : List UInt8} {lo n off : Nat} (hlo : lo ≤ off)
    (hhi : off + w.length ≤ lo + n) (hin : lo + n ≤ bs.length) :
    window (overwrite bs off w) lo n = overwrite (window bs lo n) (off - lo) w := by
  have hlen := window_length hin
  apply List.ext_getElem?
  intro i
  by_cases hn : i < n
  · rw [window_getElem? _ _ _ _ hn]
    by_cases hi : off ≤ lo + i ∧ lo + i < off + w.length
    · rw [overwrite_getElem?_inside (by omega) hi.1 hi.2,
        overwrite_getElem?_inside (by omega) (by omega) (by omega),
        show lo + i - off = i - (off - lo) by omega]
    · rw [overwrite_getElem?_outside (by omega) (by omega),
        overwrite_getElem?_outside (by omega) (by omega), window_getElem? _ _ _ _ hn]
  · have hlen' : (overwrite (window bs lo n) (off - lo) w).length = n := by
      rw [overwrite_length (by omega), hlen]
    rw [window, List.getElem?_take_eq_none (by omega), List.getElem?_eq_none (by omega)]

theorem window_window {bs : List UInt8} {lo n off k : Nat} (hlo : lo ≤ off)
    (hhi : off + k ≤ lo + n) : window (window bs lo n) (off - lo) k = window bs off k := by
  apply List.ext_getElem?
  intro i
  by_cases hi : i < k
  · rw [window_getElem? _ _ _ _ hi, window_getElem? _ _ _ _ (by omega),
      window_getElem? _ _ _ _ hi, show lo + (off - lo + i) = off + i by omega]
  · rw [window, List.getElem?_take_eq_none (by omega), window,
      List.getElem?_take_eq_none (by omega)]

theorem window_overwrite_outside {bs w : List UInt8} {lo n off : Nat}
    (hin : off + w.length ≤ bs.length) (hout : off + w.length ≤ lo ∨ lo + n ≤ off) :
    window (overwrite bs off w) lo n = window bs lo n :=
  window_congr fun i hlo hhi => overwrite_getElem?_outside hin (by omega)

/-! ## Little-endian words -/

def u16OfLE (b0 b1 : UInt8) : UInt16 := .ofNat (b0.toNat + 2 ^ 8 * b1.toNat)

def u32OfLE (b0 b1 b2 b3 : UInt8) : UInt32 :=
  .ofNat (b0.toNat + 2 ^ 8 * b1.toNat + 2 ^ 16 * b2.toNat + 2 ^ 24 * b3.toNat)

def u16ToLE (w : UInt16) : List UInt8 := [.ofNat w.toNat, .ofNat (w.toNat / 2 ^ 8)]

def u32ToLE (w : UInt32) : List UInt8 :=
  [.ofNat w.toNat, .ofNat (w.toNat / 2 ^ 8), .ofNat (w.toNat / 2 ^ 16),
    .ofNat (w.toNat / 2 ^ 24)]

/-- The 16-bit word stored at `off`. -/
def u16At (bs : List UInt8) (off : Nat) : UInt16 := u16OfLE (byteAt bs off) (byteAt bs (off + 1))

/-- The 32-bit word stored at `off`. -/
def u32At (bs : List UInt8) (off : Nat) : UInt32 :=
  u32OfLE (byteAt bs off) (byteAt bs (off + 1)) (byteAt bs (off + 2)) (byteAt bs (off + 3))

theorem u16At_window (bs : List UInt8) (off n i : Nat) (hi : i + 2 ≤ n) :
    u16At (window bs off n) i = u16At bs (off + i) := by
  rw [u16At, u16At, byteAt_window _ _ _ _ (by omega), byteAt_window _ _ _ _ (by omega),
    Nat.add_assoc]

theorem u32At_window (bs : List UInt8) (off n i : Nat) (hi : i + 4 ≤ n) :
    u32At (window bs off n) i = u32At bs (off + i) := by
  rw [u32At, u32At, byteAt_window _ _ _ _ (by omega), byteAt_window _ _ _ _ (by omega),
    byteAt_window _ _ _ _ (by omega), byteAt_window _ _ _ _ (by omega)]
  simp only [Nat.add_assoc]

@[simp] theorem u16ToLE_length (w : UInt16) : (u16ToLE w).length = 2 := rfl

@[simp] theorem u32ToLE_length (w : UInt32) : (u32ToLE w).length = 4 := rfl

theorem u32OfLE_toLE (w : UInt32) :
    u32OfLE (.ofNat w.toNat) (.ofNat (w.toNat / 2 ^ 8)) (.ofNat (w.toNat / 2 ^ 16))
      (.ofNat (w.toNat / 2 ^ 24)) = w := by
  apply UInt32.toNat_inj.mp
  have hw := w.toNat_lt
  simp only [u32OfLE, UInt8.toNat_ofNat', UInt32.toNat_ofNat']
  omega

-- A word read depends on its four bytes only.
theorem u32At_congr {as bs : List UInt8} {off : Nat}
    (h : ∀ i, off ≤ i → i < off + 4 → as[i]? = bs[i]?) : u32At as off = u32At bs off := by
  have hb : ∀ j, j < 4 → byteAt as (off + j) = byteAt bs (off + j) := by
    intro j hj
    simp only [byteAt, List.getD_eq_getElem?_getD, h (off + j) (by omega) (by omega)]
  simp only [u32At]
  rw [hb 1 (by omega), hb 2 (by omega), hb 3 (by omega), ← Nat.add_zero off, hb 0 (by omega)]

theorem u32At_eq_of_window {bs : List UInt8} {off : Nat} {w : UInt32}
    (h : window bs off 4 = u32ToLE w) : u32At bs off = w := by
  have hb : ∀ j, j < 4 → byteAt bs (off + j) = (u32ToLE w).getD j 0 := by
    intro j hj
    rw [byteAt, List.getD_eq_getElem?_getD, List.getD_eq_getElem?_getD,
      ← window_getElem? bs off 4 j hj, h]
  have h0 := hb 0 (by omega)
  rw [Nat.add_zero] at h0
  rw [u32At, h0, hb 1 (by omega), hb 2 (by omega), hb 3 (by omega)]
  exact u32OfLE_toLE w

-- Storing a word and reading it back.
theorem u32At_overwrite_same {bs : List UInt8} {off : Nat} (w : UInt32)
    (hin : off + 4 ≤ bs.length) : u32At (overwrite bs off (u32ToLE w)) off = w :=
  u32At_eq_of_window (window_overwrite_same (w := u32ToLE w) hin)

-- The bytes of a window are those of the word it holds.
theorem window_eq_u32ToLE {bs : List UInt8} {off : Nat} (hin : off + 4 ≤ bs.length) :
    window bs off 4 = u32ToLE (u32At bs off) := by
  have hlen := window_length hin
  obtain ⟨b0, b1, b2, b3, hw⟩ : ∃ b0 b1 b2 b3, window bs off 4 = [b0, b1, b2, b3] :=
    List.length_eq_four.mp hlen
  have hat : u32At bs off = u32OfLE b0 b1 b2 b3 := by
    rw [← Nat.add_zero off, ← u32At_window bs off 4 0 (by decide), hw]
    rfl
  have h0 := b0.toNat_lt
  have h1 := b1.toNat_lt
  have h2 := b2.toNat_lt
  have h3 := b3.toNat_lt
  have hn : (u32OfLE b0 b1 b2 b3).toNat =
      b0.toNat + 2 ^ 8 * b1.toNat + 2 ^ 16 * b2.toNat + 2 ^ 24 * b3.toNat := by
    rw [u32OfLE, UInt32.toNat_ofNat']
    omega
  rw [hw, hat]
  simp only [u32ToLE, hn, List.cons.injEq, and_true, ← UInt8.toNat_inj, UInt8.toNat_ofNat']
  omega

theorem window_eq_u16ToLE {bs : List UInt8} {off : Nat} (hin : off + 2 ≤ bs.length) :
    window bs off 2 = u16ToLE (u16At bs off) := by
  have hlen := window_length hin
  obtain ⟨b0, b1, hw⟩ : ∃ b0 b1, window bs off 2 = [b0, b1] := List.length_eq_two.mp hlen
  have hat : u16At bs off = u16OfLE b0 b1 := by
    rw [← Nat.add_zero off, ← u16At_window bs off 2 0 (by decide), hw]
    rfl
  have h0 := b0.toNat_lt
  have h1 := b1.toNat_lt
  have hn : (u16OfLE b0 b1).toNat = b0.toNat + 2 ^ 8 * b1.toNat := by
    rw [u16OfLE, UInt16.toNat_ofNat']
    omega
  rw [hw, hat]
  simp only [u16ToLE, hn, List.cons.injEq, and_true, ← UInt8.toNat_inj, UInt8.toNat_ofNat']
  omega

theorem u16OfLE_toLE (c : UInt16) :
    u16OfLE (.ofNat c.toNat) (.ofNat (c.toNat / 2 ^ 8)) = c := by
  apply UInt16.toNat_inj.mp
  have hc := c.toNat_lt
  simp only [u16OfLE, UInt8.toNat_ofNat', UInt16.toNat_ofNat']
  omega

theorem u16At_overwrite_same {bs : List UInt8} {off : Nat} (c : UInt16)
    (hin : off + 2 ≤ bs.length) : u16At (overwrite bs off (u16ToLE c)) off = c := by
  have hw : window (overwrite bs off (u16ToLE c)) off 2 = u16ToLE c :=
    window_overwrite_same (w := u16ToLE c) hin
  rw [← Nat.add_zero off, ← u16At_window _ off 2 0 (by decide), Nat.add_zero, hw]
  exact u16OfLE_toLE c

-- Masking a two-byte word masks each byte by its own half of the mask.
theorem land_two_bytes {a c : Nat} (b d : Nat) (ha : a < 2 ^ 8) (hc : c < 2 ^ 8) :
    (a + 2 ^ 8 * b) &&& (c + 2 ^ 8 * d) = (a &&& c) + 2 ^ 8 * (b &&& d) := by
  have hac : a &&& c < 2 ^ 8 := Nat.and_lt_two_pow _ hc
  apply Nat.eq_of_testBit_eq
  intro j
  rw [Nat.testBit_and, Nat.add_comm a, Nat.add_comm c, Nat.add_comm (a &&& c),
    Nat.testBit_two_pow_mul_add _ ha, Nat.testBit_two_pow_mul_add _ hc,
    Nat.testBit_two_pow_mul_add _ hac]
  split
  · rw [Nat.testBit_and]
  · rw [Nat.testBit_and]

end DnsGateway.Reasoning
