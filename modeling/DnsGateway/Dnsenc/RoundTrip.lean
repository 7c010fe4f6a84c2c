import Mathlib.Algebra.GroupWithZero.Nat
import DnsGateway.Dnsenc.Wire

/-!
# Encoding and decoding keys (`internal/dnsenc/wire.go`)

`DecodeSuffix` reads the labels of a key back.  Labels carry their length, so the labels a key holds
are determined by its bytes; what the dotted string adds is the case of the letters and the dots
inside labels, and these are all that the round trip through it can change.
-/

namespace DnsGateway.Dnsenc

open DnsGateway.Reasoning

/-! ## `DecodeSuffix` -/

/-- The ways `DecodeSuffix` can fail. -/
inductive DecodeError where
  | nameExceedsBuffer (offset : Nat)
  | invalidLabelLength (labelLen offset : Nat)
  | labelBeyondBuffer (offset : Nat)
  | emptyName
  deriving DecidableEq, Repr

def DecodeError.format : DecodeError → String
  | nameExceedsBuffer _ => "name exceeds buffer at offset %d"
  | invalidLabelLength _ _ => "invalid label length %d at offset %d"
  | labelBeyondBuffer _ => "label extends beyond buffer at offset %d"
  | emptyName => "empty name"

/-- The loop of `DecodeSuffix`, with `labels` and `pos` as its variables. -/
def decodeLabels (key : WireKey) (labels : List GoString) (pos : Nat) :
    Except DecodeError (List GoString × Nat) :=
  if h : pos < maxDNSNameLen then
    let labelLen := (key.get ⟨pos, h⟩).toNat
    if labelLen = 0 then .ok (labels, pos)
    else if labelLen > 63 then .error (.invalidLabelLength labelLen pos)
    else if pos + 1 + labelLen > maxDNSNameLen then .error (.labelBeyondBuffer (pos + 1))
    else decodeLabels key (labels ++ [window key.toList (pos + 1) labelLen]) (pos + 1 + labelLen)
  else .error (.nameExceedsBuffer pos)
termination_by maxDNSNameLen - pos

/-- `DecodeSuffix`. -/
def decodeSuffix (key : WireKey) : Except DecodeError GoString :=
  match decodeLabels key [] 0 with
  | .error e => .error e
  | .ok (labels, _) => if labels = [] then .error .emptyName else .ok ([dot].intercalate labels)

/-! ## What the loop reads -/

theorem key_get {key : WireKey} {w rest : List UInt8} {b : UInt8}
    (hkey : key.toList = w ++ b :: rest) (h : w.length < maxDNSNameLen) :
    key.get ⟨w.length, h⟩ = b := by
  rw [List.Vector.get_eq_get_toList]
  simp [hkey]

-- A key that holds `ls` behind `w` and then a zero byte.
theorem decodeLabels_complete (key : WireKey) (ls labels : List GoString) (w rest : List UInt8)
    (hls : LabelsOk ls) (hkey : key.toList = w ++ wireBody ls ++ 0 :: rest) :
    decodeLabels key labels w.length = .ok (labels ++ ls, (w ++ wireBody ls).length) := by
  have hlen : w.length + (wireBody ls).length < maxDNSNameLen := by
    have h := congrArg List.length hkey
    rw [List.Vector.toList_length, List.length_append, List.length_append, List.length_cons] at h
    omega
  induction ls generalizing labels w with
  | nil =>
      rw [wireBody, List.append_nil] at hkey
      rw [decodeLabels, dif_pos (by omega), key_get hkey, wireBody, List.append_nil,
        List.append_nil]
      rfl
  | cons l ls ih =>
      have hl := hls.head
      have hbody := wireBody_cons_length l ls
      have hnext : (w ++ UInt8.ofNat l.length :: l).length = w.length + 1 + l.length := by
        rw [List.length_append, List.length_cons]
        omega
      have happ : w ++ wireBody (l :: ls) = (w ++ UInt8.ofNat l.length :: l) ++ wireBody ls := by
        rw [wireBody, List.append_assoc, List.cons_append]
      have hat : key.toList =
          w ++ UInt8.ofNat l.length :: (l ++ (wireBody ls ++ 0 :: rest)) := by
        rw [hkey, happ, List.append_assoc, List.append_assoc, List.cons_append]
      have hread : window key.toList (w.length + 1) l.length = l := by
        rw [hat, window, ← List.drop_drop, List.drop_left]
        exact List.take_left
      rw [decodeLabels, dif_pos (by omega), key_get hat]
      dsimp only
      rw [lengthByte_toNat hl.2, if_neg (by omega), if_neg (by omega), if_neg (by omega), hread,
        ← hnext, ih (labels ++ [l]) _ hls.tail (happ ▸ hkey) (by omega), happ, List.append_assoc,
        List.singleton_append]

theorem key_drop (key : WireKey) {pos : Nat} (h : pos < maxDNSNameLen) :
    key.toList.drop pos = key.get ⟨pos, h⟩ :: key.toList.drop (pos + 1) := by
  rw [List.drop_eq_getElem_cons (by rwa [List.Vector.toList_length]),
    List.Vector.get_eq_get_toList]
  rfl

-- What the loop accepts: labels of admissible lengths up to a zero byte.
theorem decodeLabels_sound (key : WireKey) (labels : List GoString) (pos : Nat)
    {labels' : List GoString} {pos' : Nat} (h : decodeLabels key labels pos = .ok (labels', pos')) :
    ∃ ls rest, LabelsOk ls ∧ labels' = labels ++ ls ∧ pos' = pos + (wireBody ls).length ∧
      key.toList.drop pos = wireBody ls ++ 0 :: rest := by
  fun_induction decodeLabels key labels pos with
  | case1 labels pos hpos labelLen hzero =>
      rw [Except.ok.injEq, Prod.mk.injEq] at h
      refine ⟨[], key.toList.drop (pos + 1), fun l hl => absurd hl List.not_mem_nil, ?_,
        h.2.symm, ?_⟩
      · rw [List.append_nil, h.1]
      · rw [key_drop key hpos, show key.get ⟨pos, hpos⟩ = 0 from UInt8.toNat_inj.mp hzero]
        rfl
  | case2 => cases h
  | case3 => cases h
  | case4 labels pos hpos labelLen hzero hshort hfits ih =>
      rcases ih h with ⟨ls, rest, hls, hlabels, hend, hrest⟩
      have hlen : (window key.toList (pos + 1) labelLen).length = labelLen :=
        window_length (by rw [List.Vector.toList_length]; omega)
      refine ⟨window key.toList (pos + 1) labelLen :: ls, rest, ?_, ?_, ?_, ?_⟩
      · intro l hl
        rcases List.mem_cons.mp hl with rfl | hl
        · omega
        · exact hls l hl
      · rw [hlabels, List.append_assoc, List.singleton_append]
      · rw [hend, wireBody_cons_length, hlen]
        omega
      · rw [wireBody, hlen, UInt8.ofNat_toNat, List.cons_append, List.append_assoc, ← hrest,
          key_drop key hpos, window, ← @List.drop_drop _ labelLen, List.take_append_drop]
  | case5 => cases h

-- `DecodeSuffix` accepts exactly the keys that hold a non-empty list of labels.
theorem decodeSuffix_ok_iff {key : WireKey} {s : GoString} :
    decodeSuffix key = .ok s ↔
      ∃ ls rest, LabelsOk ls ∧ ls ≠ [] ∧ key.toList = wireBody ls ++ 0 :: rest ∧
        decodeLabels key [] 0 = .ok (ls, (wireBody ls).length) ∧ s = [dot].intercalate ls := by
  constructor
  · intro h
    unfold decodeSuffix at h
    split at h
    · cases h
    · rename_i labels pos hloop
      rcases decodeLabels_sound key [] 0 hloop with ⟨ls, rest, hls, hlabels, hpos, hkey⟩
      rw [List.nil_append] at hlabels
      rw [Nat.zero_add] at hpos
      rw [List.drop_zero] at hkey
      subst hlabels hpos
      split at h
      · cases h
      · rename_i hne
        exact ⟨labels, rest, hls, hne, hkey, hloop, (Except.ok.inj h).symm⟩
  · rintro ⟨ls, rest, -, hne, -, hloop, rfl⟩
    unfold decodeSuffix
    rw [hloop]
    exact if_neg hne

/-! ## Round trips -/

/-- The dotted name `EncodeSuffix` encodes: no trailing dot, in lower case. -/
def canonical (domain : GoString) : GoString := (trimSuffix domain [dot]).map asciiToLower

theorem domainLabels_ascii {unicodeToLower : GoString → GoString} {domain : GoString}
    (hascii : ∀ b ∈ domain, b < 0x80) :
    domainLabels unicodeToLower domain = (canonical domain).splitOn dot := by
  rw [domainLabels, toLower_ascii fun b hb => hascii b (mem_of_mem_trimSuffix hb), canonical]

theorem keyOf_toList {ls : List GoString} (h : Encodable ls) :
    (keyOf ls).toList =
      wireBody ls ++ 0 :: List.replicate (maxDNSNameLen - (wireName ls).length) 0 := by
  rw [keyOf, bufOf_toList h.fits, padded, wireName, List.append_assoc, List.singleton_append]

theorem wireBody_eq_flatMap (ls : List (List UInt8)) :
    wireBody ls = ls.flatMap fun l => UInt8.ofNat l.length :: l := by
  induction ls with
  | nil => rfl
  | cons l ls ih => rw [wireBody, ih, List.flatMap_cons, List.cons_append]

theorem wireBody_length (ls : List (List UInt8)) :
    (wireBody ls).length = (ls.map fun l => 1 + l.length).sum := by
  induction ls with
  | nil => rfl
  | cons l ls ih => rw [wireBody_cons_length, ih, List.map_cons, List.sum_cons]

/-- `EncodeSuffix` accepts an ASCII domain exactly when its labels have 1 to 63 bytes and fit the
key with the terminator, and then the key is made of them and zeros.  It never indexes the key out
of range. -/
theorem encodeSuffix_exact (unicodeToLower : GoString → GoString) (domain : GoString)
    (hascii : ∀ b ∈ domain, b < 0x80) :
    let ls := ((trimSuffix domain [dot]).map asciiToLower).splitOn dot
    ((∃ key, encodeSuffix unicodeToLower domain = .ok key) ↔
      ls ≠ [] ∧ (∀ l ∈ ls, 1 ≤ l.length ∧ l.length ≤ 63) ∧
        (ls.map fun l => 1 + l.length).sum + 1 ≤ 128) ∧
    (∀ key, encodeSuffix unicodeToLower domain = .ok key → key.toList =
      (ls.flatMap fun l => UInt8.ofNat l.length :: l) ++
        0 :: List.replicate (128 - ((ls.map fun l => 1 + l.length).sum + 1)) 0) ∧
    encodeSuffix unicodeToLower domain ≠ .error .indexOutOfRange := by
  intro ls
  have hlabels : domainLabels unicodeToLower domain = ls := domainLabels_ascii hascii
  have hlen : (wireName ls).length = (ls.map fun l => 1 + l.length).sum + 1 := by
    rw [wireName_length, wireBody_length]
  have hne : ls ≠ [] := List.splitOnP_ne_nil _ _
  have hcases := encodeSuffix_cases unicodeToLower domain
  rw [hlabels] at hcases
  rw [← hlen, ← wireBody_eq_flatMap]
  rcases hcases with ⟨henc, hok⟩ | ⟨hbad, e, he, herr⟩
  · rw [hok]
    refine ⟨⟨fun _ => ⟨hne, henc.labels, henc.fits⟩, fun _ => ⟨_, rfl⟩⟩, ?_, fun h => by cases h⟩
    intro key hkey
    rw [← Except.ok.inj hkey, keyOf_toList henc]
    rfl
  · rw [herr]
    refine ⟨⟨?_, fun h => absurd ⟨h.2.1, h.2.2⟩ hbad⟩, ?_, fun h => he (Except.error.inj h)⟩
    · rintro ⟨key, h⟩
      cases h
    · intro key h
      cases h

-- `Corp.`
theorem encodeSuffix_exact_corp : ∃ key, encodeSuffix id [67, 111, 114, 112, dot] = .ok key :=
  (encodeSuffix_exact id [67, 111, 114, 112, dot] (ascii_of_all (by decide))).1.mpr (by decide)

theorem encodeSuffix_decodes {unicodeToLower : GoString → GoString} {domain : GoString}
    {key : WireKey} (hascii : ∀ b ∈ domain, b < 0x80)
    (hkey : encodeSuffix unicodeToLower domain = .ok key) :
    decodeSuffix key = .ok (canonical domain) := by
  rcases encodeSuffix_ok_iff.mp hkey with ⟨henc, rfl⟩
  rw [domainLabels_ascii hascii] at henc ⊢
  have hloop := decodeLabels_complete (keyOf ((canonical domain).splitOn dot)) _ [] [] _
    henc.labels (keyOf_toList henc)
  exact decodeSuffix_ok_iff.mpr ⟨_, _, henc.labels, List.splitOnP_ne_nil _ _, keyOf_toList henc,
    hloop, (List.intercalate_splitOn dot).symm⟩

/-- No letter is a capital and no byte is a dot. -/
def Plain (labels : List GoString) : Prop :=
  ∀ l ∈ labels, ∀ b ∈ l, ¬ (65 ≤ b ∧ b ≤ 90) ∧ b ≠ dot

theorem plain_canonical (domain : GoString) : Plain ((canonical domain).splitOn dot) := by
  intro l hl b hb
  rcases mem_of_mem_splitOn hl hb with ⟨hmem, hdot⟩
  rcases List.mem_map.mp hmem with ⟨c, -, rfl⟩
  exact ⟨asciiToLower_lower c, hdot⟩

theorem mem_intercalate {ls : List GoString} {b d : UInt8} (h : b ∈ [d].intercalate ls) :
    b = d ∨ ∃ l ∈ ls, b ∈ l := by
  induction ls with
  | nil => exact absurd h List.not_mem_nil
  | cons l ls ih =>
      cases ls with
      | nil => exact Or.inr ⟨l, List.mem_singleton_self l, by simpa [List.intercalate] using h⟩
      | cons m ls =>
          have h : b ∈ l ∨ b = d ∨ b ∈ [d].intercalate (m :: ls) := by
            simpa [List.intercalate] using h
          rcases h with h | rfl | h
          · exact Or.inr ⟨l, List.mem_cons_self, h⟩
          · exact Or.inl rfl
          · rcases ih h with rfl | ⟨x, hx, hb⟩
            · exact Or.inl rfl
            · exact Or.inr ⟨x, List.mem_cons_of_mem l hx, hb⟩

theorem splitOn_of_plain {ls : List GoString} (hplain : Plain ls) (hne : ls ≠ []) :
    ([dot].intercalate ls).splitOn dot = ls :=
  List.splitOn_intercalate dot (fun l hl hdot => (hplain l hl dot hdot).2 rfl) hne

-- Joined plain labels have no trailing dot to trim and no capital to lower.
theorem canonical_of_plain {ls : List GoString} (hls : LabelsOk ls) (hplain : Plain ls)
    (hne : ls ≠ []) : canonical ([dot].intercalate ls) = [dot].intercalate ls := by
  have htrim : trimSuffix ([dot].intercalate ls) [dot] = [dot].intercalate ls := by
    apply trimSuffix_dot
    rw [splitOn_of_plain hplain hne]
    exact hls
  have hlower : ∀ b ∈ [dot].intercalate ls, asciiToLower b = b := by
    intro b hb
    rcases mem_intercalate hb with rfl | ⟨l, hl, hb⟩
    · rfl
    · exact asciiToLower_of_lower (hplain l hl b hb).1
  rw [canonical, htrim, List.map_congr_left hlower, List.map_id']

-- A key with the labels `ls` is the key of the dotted name made of them only if nothing but zeros
-- follows and the name determines the labels.
theorem encodeSuffix_join_iff {unicodeToLower : GoString → GoString} {key : WireKey}
    {ls : List GoString} {rest : List UInt8} (hls : LabelsOk ls) (hne : ls ≠ [])
    (hkey : key.toList = wireBody ls ++ 0 :: rest) (hascii : ∀ l ∈ ls, ∀ b ∈ l, b < 0x80) :
    encodeSuffix unicodeToLower ([dot].intercalate ls) = .ok key ↔
      (∀ b ∈ rest, b = 0) ∧ Plain ls := by
  have hlen : (wireBody ls).length + 1 + rest.length = maxDNSNameLen := by
    have h := congrArg List.length hkey
    rw [List.Vector.toList_length, List.length_append, List.length_cons] at h
    omega
  have hdomain : ∀ b ∈ [dot].intercalate ls, b < 0x80 := by
    intro b hb
    rcases mem_intercalate hb with rfl | ⟨l, hl, hb⟩
    · decide
    · exact hascii l hl b hb
  rw [encodeSuffix_ok_iff, domainLabels_ascii hdomain]
  constructor
  · rintro ⟨henc, rfl⟩
    rw [keyOf_toList henc] at hkey
    rcases wireBody_zero_inj henc.labels hls hkey with ⟨hsame, rfl⟩
    refine ⟨fun b hb => List.eq_of_mem_replicate hb, ?_⟩
    rw [← hsame]
    exact plain_canonical _
  · rintro ⟨hrest, hplain⟩
    have henc : Encodable ls := ⟨hls, by rw [wireName_length]; omega⟩
    rw [canonical_of_plain hls hplain hne, splitOn_of_plain hplain hne]
    refine ⟨henc, Subtype.ext ?_⟩
    change key.toList = (keyOf ls).toList
    rw [keyOf_toList henc, hkey, wireName_length]
    congr 2
    exact List.eq_replicate_iff.mpr ⟨by omega, hrest⟩

/-- `DecodeSuffix` undoes `EncodeSuffix` up to case and one trailing dot, so that accepted domains
share a key only when they agree up to these; and `EncodeSuffix` undoes `DecodeSuffix` exactly on
the keys with nothing behind the terminator and neither capitals nor dots in their labels. -/
theorem decodeSuffix_encodeSuffix_inverse (unicodeToLower : GoString → GoString) :
    (∀ domain key, (∀ b ∈ domain, b < 0x80) → encodeSuffix unicodeToLower domain = .ok key →
      decodeSuffix key = .ok ((trimSuffix domain [dot]).map asciiToLower)) ∧
    (∀ domain domain' key, (∀ b ∈ domain, b < 0x80) → (∀ b ∈ domain', b < 0x80) →
      encodeSuffix unicodeToLower domain = .ok key → encodeSuffix unicodeToLower domain' = .ok key →
      (trimSuffix domain [dot]).map asciiToLower = (trimSuffix domain' [dot]).map asciiToLower) ∧
    (∀ key domain, decodeSuffix key = .ok domain → ∃ labels pos,
      decodeLabels key [] 0 = .ok (labels, pos) ∧
      ((∀ l ∈ labels, ∀ b ∈ l, b < 0x80) →
        (encodeSuffix unicodeToLower domain = .ok key ↔
          (∀ b ∈ key.toList.drop (pos + 1), b = 0) ∧
            ∀ l ∈ labels, ∀ b ∈ l, ¬ (65 ≤ b ∧ b ≤ 90) ∧ b ≠ dot))) := by
  refine ⟨fun domain key hascii hkey => encodeSuffix_decodes hascii hkey, ?_, ?_⟩
  · intro domain domain' key hascii hascii' hkey hkey'
    have hsame := (encodeSuffix_decodes hascii hkey).symm.trans
      (encodeSuffix_decodes hascii' hkey')
    exact Except.ok.inj hsame
  · intro key domain hdecode
    rcases decodeSuffix_ok_iff.mp hdecode with ⟨ls, rest, hls, hne, hkey, hloop, rfl⟩
    refine ⟨ls, (wireBody ls).length, hloop, fun hascii => ?_⟩
    rw [encodeSuffix_join_iff hls hne hkey hascii, hkey, ← List.drop_drop, List.drop_left]
    rfl

end DnsGateway.Dnsenc
