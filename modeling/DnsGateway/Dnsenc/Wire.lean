import DnsGateway.Reasoning.Labels

/-!
# Wire-format keys (`internal/dnsenc/wire.go`)

`EncodeSuffix` turns a domain into the key of a suffix rule.  Go strings are byte strings; an index
or slice expression out of range is the outcome `indexOutOfRange`, which `encodeSuffix_cases`
shows not to happen.
-/

namespace DnsGateway.Dnsenc

open DnsGateway.Reasoning

/-- A Go string, as its bytes. -/
abbrev GoString := List UInt8

/-- An ASCII text as a Go string. -/
def goText (s : String) : GoString := s.toList.map Char.toUInt8

def maxDNSNameLen : Nat := 128

/-- `[MaxDNSNameLen]byte`. -/
abbrev WireKey := List.Vector UInt8 maxDNSNameLen

def dot : UInt8 := 46
def star : UInt8 := 42

/-! ## The string functions of the Go library -/

/-- `strings.TrimSuffix`. -/
def trimSuffix (s suffix : GoString) : GoString :=
  if suffix <:+ s then s.take (s.length - suffix.length) else s

def asciiToLower (b : UInt8) : UInt8 := if 65 ≤ b ∧ b ≤ 90 then b + 32 else b

theorem asciiToLower_toNat (b : UInt8) : (asciiToLower b).toNat =
    if 65 ≤ b.toNat ∧ b.toNat ≤ 90 then b.toNat + 32 else b.toNat := by
  have hiff : (65 ≤ b ∧ b ≤ 90) ↔ (65 ≤ b.toNat ∧ b.toNat ≤ 90) :=
    and_congr UInt8.le_iff_toNat_le UInt8.le_iff_toNat_le
  unfold asciiToLower
  by_cases h : 65 ≤ b.toNat ∧ b.toNat ≤ 90
  · rw [if_pos (hiff.mpr h), if_pos h, UInt8.toNat_add]
    change (b.toNat + 32) % 2 ^ 8 = b.toNat + 32
    omega
  · rw [if_neg (fun hb => h (hiff.mp hb)), if_neg h]

theorem asciiToLower_of_lower {b : UInt8} (h : ¬ (65 ≤ b ∧ b ≤ 90)) : asciiToLower b = b := if_neg h

theorem asciiToLower_lower (b : UInt8) : ¬ (65 ≤ asciiToLower b ∧ asciiToLower b ≤ 90) := by
  rw [UInt8.le_iff_toNat_le, UInt8.le_iff_toNat_le, asciiToLower_toNat]
  change ¬ (65 ≤ _ ∧ _ ≤ 90)
  split <;> omega

/-- `strings.ToLower`.  On a string with a non-ASCII byte it is `strings.Map(unicode.ToLower, s)`,
which is left as the parameter `unicodeToLower`. -/
def toLower (unicodeToLower : GoString → GoString) (s : GoString) : GoString :=
  if s.all (· < 0x80) then s.map asciiToLower else unicodeToLower s

-- For texts that are given; the test is on numbers.
theorem ascii_of_all {s : GoString} (h : s.all (fun b => b.toNat < 128) = true) :
    ∀ b ∈ s, b < 0x80 := by
  intro b hb
  have hlt := List.all_eq_true.mp h b hb
  exact UInt8.lt_iff_toNat_lt.mpr (of_decide_eq_true hlt)

theorem mem_of_mem_trimSuffix {s suffix : GoString} {b : UInt8} (h : b ∈ trimSuffix s suffix) :
    b ∈ s := by
  unfold trimSuffix at h
  split at h
  · exact List.mem_of_mem_take h
  · exact h

theorem toLower_ascii {unicodeToLower : GoString → GoString} {s : GoString}
    (h : ∀ b ∈ s, b < 0x80) : toLower unicodeToLower s = s.map asciiToLower :=
  if_pos (List.all_eq_true.mpr fun b hb => decide_eq_true (h b hb))

-- A piece of a split string is made of bytes of the string, and has no separator.
theorem mem_of_mem_splitOn {s : List UInt8} {d : UInt8} {l : List UInt8} (hl : l ∈ s.splitOn d)
    {b : UInt8} (hb : b ∈ l) : b ∈ s ∧ b ≠ d := by
  induction s generalizing l with
  | nil =>
      rw [List.splitOn_nil, List.mem_singleton] at hl
      rw [hl] at hb
      exact absurd hb List.not_mem_nil
  | cons x s ih =>
      have hmore : b ∈ s ∧ b ≠ d → b ∈ x :: s ∧ b ≠ d := fun h => ⟨List.mem_cons_of_mem x h.1, h.2⟩
      rw [List.splitOn_cons_eq_if_modifyHead] at hl
      split at hl
      · rcases List.mem_cons.mp hl with rfl | hl
        · exact absurd hb List.not_mem_nil
        · exact hmore (ih hl hb)
      · rename_i hx
        cases hsplit : s.splitOn d with
        | nil => exact absurd hsplit (List.splitOn_ne_nil d s)
        | cons y ys =>
            rw [hsplit] at hl ih
            rcases List.mem_cons.mp hl with rfl | hl
            · rcases List.mem_cons.mp hb with rfl | hb
              · exact ⟨List.mem_cons_self, fun h => hx (by rw [h, beq_self_eq_true])⟩
              · exact hmore (ih List.mem_cons_self hb)
            · exact hmore (ih (List.mem_cons_of_mem y hl) hb)

-- Without empty labels there is no trailing dot.
theorem trimSuffix_dot {s : GoString} (h : LabelsOk (s.splitOn dot)) : trimSuffix s [dot] = s := by
  apply if_neg
  rintro ⟨t, rfl⟩
  rw [List.splitOn_append_cons_self, List.splitOn_nil] at h
  exact absurd (h [] (List.mem_append_right _ (List.mem_singleton_self []))).1 (by decide)

/-! ## `EncodeSuffix` -/

/-- The ways `EncodeSuffix` can fail. -/
inductive EncodeError where
  | emptyDomain
  | emptyLabel (domain : GoString)
  | labelTooLong (label : GoString)
  | nameTooLong (domain : GoString)
  | indexOutOfRange
  deriving DecidableEq, Repr

/-- The format strings of the errors; the panic is the run time's own. -/
def EncodeError.format : EncodeError → String
  | emptyDomain => "empty domain"
  | emptyLabel _ => "empty label in %q"
  | labelTooLong _ => "label %q exceeds 63 bytes"
  | nameTooLong _ => "domain %q exceeds max wire-format length"
  | indexOutOfRange => "index out of range"

/-- `copy(key[pos:], w)`. -/
def copyAt (key : WireKey) (pos : Nat) (w : List UInt8) : Option WireKey :=
  if h : pos ≤ maxDNSNameLen then
    some ⟨overwrite key.toList pos (w.take (maxDNSNameLen - pos)), by
      rw [overwrite_length, List.Vector.toList_length]
      rw [List.length_take, List.Vector.toList_length]
      omega⟩
  else none

/-- `key[pos] = b`. -/
def setAt (key : WireKey) (pos : Nat) (b : UInt8) : Option WireKey :=
  if pos < maxDNSNameLen then copyAt key pos [b] else none

/-- The loop over the labels, with `pos` and `key` as its variables. -/
def encodeLabels (domain : GoString) : List GoString → Nat → WireKey →
    Except EncodeError (Nat × WireKey)
  | [], pos, key => .ok (pos, key)
  | label :: labels, pos, key =>
      if label.length = 0 then .error (.emptyLabel domain)
      else if label.length > 63 then .error (.labelTooLong label)
      else if pos + 1 + label.length ≥ maxDNSNameLen then .error (.nameTooLong domain)
      else
        match setAt key pos (UInt8.ofNat label.length) with
        | none => .error .indexOutOfRange
        | some key =>
          match copyAt key (pos + 1) label with
          | none => .error .indexOutOfRange
          | some key => encodeLabels domain labels (pos + 1 + label.length) key

/-- `EncodeSuffix`. -/
def encodeSuffix (unicodeToLower : GoString → GoString) (domain : GoString) :
    Except EncodeError WireKey :=
  let domain := toLower unicodeToLower (trimSuffix domain [dot])
  if domain = [] then .error .emptyDomain
  else
    match encodeLabels domain (domain.splitOn dot) 0 (List.Vector.replicate maxDNSNameLen 0) with
    | .error e => .error e
    | .ok (pos, key) =>
      match setAt key pos 0 with
      | none => .error .indexOutOfRange
      | some key => .ok key

/-- `ParsePattern`. -/
def parsePattern (pattern : GoString) : GoString × Bool :=
  if [star, dot] <+: pattern then (pattern.drop 2, true) else (pattern, false)

/-! ## What the encoder accepts -/

/-- The labels `EncodeSuffix` sees in a domain. -/
def domainLabels (unicodeToLower : GoString → GoString) (domain : GoString) : List GoString :=
  (toLower unicodeToLower (trimSuffix domain [dot])).splitOn dot

/-- A label list with an encoding that fits the key. -/
structure Encodable (ls : List (List UInt8)) : Prop where
  labels : LabelsOk ls
  fits : (wireName ls).length ≤ maxDNSNameLen

instance (ls : List (List UInt8)) : Decidable (Encodable ls) :=
  decidable_of_iff (LabelsOk ls ∧ (wireName ls).length ≤ maxDNSNameLen)
    ⟨fun h => ⟨h.1, h.2⟩, fun h => ⟨h.1, h.2⟩⟩

theorem Encodable.suffix {ls key : List (List UInt8)} (h : Encodable ls) (hk : key <:+ ls) :
    Encodable key := by
  rcases hk with ⟨pre, rfl⟩
  have hfits := h.fits
  rw [wireName_length, wireBody_append, List.length_append] at hfits
  refine ⟨fun l hl => h.labels l (List.mem_append_right pre hl), ?_⟩
  rw [wireName_length]
  omega

/-- The key of a label list. -/
def keyOf (ls : List (List UInt8)) : WireKey := bufOf maxDNSNameLen (wireName ls)

theorem keyOf_inj {ls ms : List (List UInt8)} (hl : Encodable ls) (hm : Encodable ms) :
    keyOf ls = keyOf ms ↔ ls = ms :=
  bufOf_wireName_inj hl.labels hm.labels hl.fits hm.fits

-- Writing behind what has been written so far.
theorem copyAt_bufOf {w l : List UInt8} (h : w.length + l.length ≤ maxDNSNameLen) :
    copyAt (bufOf maxDNSNameLen w) w.length l = some (bufOf maxDNSNameLen (w ++ l)) := by
  have hw : w.length ≤ maxDNSNameLen := by omega
  have hwl : (w ++ l).length ≤ maxDNSNameLen := by rwa [List.length_append]
  unfold copyAt
  rw [dif_pos hw]
  congr 1
  apply Subtype.ext
  change overwrite (bufOf maxDNSNameLen w).toList w.length (l.take (maxDNSNameLen - w.length)) =
    (bufOf maxDNSNameLen (w ++ l)).toList
  rw [bufOf_toList hw, bufOf_toList hwl, List.take_of_length_le (by omega), overwrite, padded,
    padded, List.take_left, List.drop_append, List.drop_of_length_le (by omega), List.nil_append,
    List.drop_replicate, List.length_append]
  congr 2
  omega

theorem setAt_bufOf {w : List UInt8} (b : UInt8) (h : w.length < maxDNSNameLen) :
    setAt (bufOf maxDNSNameLen w) w.length b = some (bufOf maxDNSNameLen (w ++ [b])) := by
  rw [setAt, if_pos h, copyAt_bufOf (by rw [List.length_singleton]; omega)]

-- The loop, started behind `w`: it appends the encoded labels, or reports one of its errors.
theorem encodeLabels_spec (domain : GoString) (labels : List GoString) (w : List UInt8)
    (hw : w.length < maxDNSNameLen) :
    (LabelsOk labels ∧ w.length + (wireBody labels).length < maxDNSNameLen ∧
      encodeLabels domain labels w.length (bufOf maxDNSNameLen w) =
        .ok ((w ++ wireBody labels).length, bufOf maxDNSNameLen (w ++ wireBody labels))) ∨
    (¬ (LabelsOk labels ∧ w.length + (wireBody labels).length < maxDNSNameLen) ∧
      ∃ e, e ≠ .indexOutOfRange ∧
        encodeLabels domain labels w.length (bufOf maxDNSNameLen w) = .error e) := by
  induction labels generalizing w with
  | nil =>
      refine Or.inl ⟨fun l hl => absurd hl List.not_mem_nil, hw, ?_⟩
      rw [encodeLabels, wireBody, List.append_nil]
  | cons label labels ih =>
      have hbody := wireBody_cons_length label labels
      rw [encodeLabels]
      split
      · rename_i hzero
        refine Or.inr ⟨fun h => ?_, _, EncodeError.noConfusion, rfl⟩
        have hhead := h.1.head
        omega
      · split
        · rename_i hlong
          refine Or.inr ⟨fun h => ?_, _, EncodeError.noConfusion, rfl⟩
          have hhead := h.1.head
          omega
        · split
          · refine Or.inr ⟨fun h => ?_, _, EncodeError.noConfusion, rfl⟩
            omega
          · rename_i hpos hshort hfits
            have hw' : (w ++ UInt8.ofNat label.length :: label).length =
                w.length + 1 + label.length := by
              rw [List.length_append, List.length_cons]
              omega
            have happ : w ++ wireBody (label :: labels) =
                (w ++ UInt8.ofNat label.length :: label) ++ wireBody labels := by
              rw [wireBody, List.append_assoc, List.cons_append]
            have hcopy : copyAt (bufOf maxDNSNameLen (w ++ [UInt8.ofNat label.length]))
                (w.length + 1) label =
                  some (bufOf maxDNSNameLen (w ++ UInt8.ofNat label.length :: label)) := by
              have h := copyAt_bufOf (w := w ++ [UInt8.ofNat label.length]) (l := label)
                (by rw [List.length_append, List.length_singleton]; omega)
              rwa [List.append_assoc, List.singleton_append, List.length_append,
                List.length_singleton] at h
            have hcons : LabelsOk (label :: labels) ↔ LabelsOk labels :=
              ⟨fun h => h.tail, fun h x hx => by
                rcases List.mem_cons.mp hx with rfl | hx
                · omega
                · exact h x hx⟩
            rw [setAt_bufOf _ hw]
            dsimp only
            rw [hcopy]
            dsimp only
            rw [← hw', happ, hcons, hbody]
            have hnext := ih (w ++ UInt8.ofNat label.length :: label) (by omega)
            rw [hw', show w.length + 1 + label.length + (wireBody labels).length =
              w.length + (1 + label.length + (wireBody labels).length) by omega] at hnext
            rw [hw']
            exact hnext

theorem replicate_eq_bufOf : List.Vector.replicate maxDNSNameLen 0 = bufOf maxDNSNameLen [] :=
  Subtype.ext (bufOf_toList (show ([] : List UInt8).length ≤ maxDNSNameLen by decide)).symm

-- `EncodeSuffix` accepts exactly the domains whose label list is encodable.
theorem encodeSuffix_cases (unicodeToLower : GoString → GoString) (domain : GoString) :
    (Encodable (domainLabels unicodeToLower domain) ∧
      encodeSuffix unicodeToLower domain = .ok (keyOf (domainLabels unicodeToLower domain))) ∨
    (¬ Encodable (domainLabels unicodeToLower domain) ∧
      ∃ e, e ≠ .indexOutOfRange ∧ encodeSuffix unicodeToLower domain = .error e) := by
  unfold encodeSuffix domainLabels
  generalize toLower unicodeToLower (trimSuffix domain [dot]) = d
  dsimp only
  split
  · rename_i hnil
    subst hnil
    refine Or.inr ⟨fun h => ?_, _, EncodeError.noConfusion, rfl⟩
    exact absurd (h.labels [] (by rw [List.splitOn_nil]; exact List.mem_singleton_self _)).1
      (by decide)
  · have hsize := wireName_length (d.splitOn dot)
    rw [replicate_eq_bufOf]
    rcases encodeLabels_spec d (d.splitOn dot) [] (by decide) with
      ⟨hls, hfits, hloop⟩ | ⟨hbad, e, he, hloop⟩
    · rw [List.length_nil] at hloop hfits
      rw [hloop]
      dsimp only
      rw [List.nil_append, setAt_bufOf _ (by omega)]
      exact Or.inl ⟨⟨hls, by omega⟩, rfl⟩
    · rw [List.length_nil] at hloop hbad
      rw [hloop]
      refine Or.inr ⟨fun h => hbad ⟨h.labels, ?_⟩, e, he, rfl⟩
      have hfits := h.fits
      omega

theorem encodeSuffix_ok_iff {unicodeToLower : GoString → GoString} {domain : GoString}
    {key : WireKey} :
    encodeSuffix unicodeToLower domain = .ok key ↔
      Encodable (domainLabels unicodeToLower domain) ∧
        key = keyOf (domainLabels unicodeToLower domain) := by
  rcases encodeSuffix_cases unicodeToLower domain with ⟨henc, hok⟩ | ⟨hbad, e, -, herr⟩
  · rw [hok, Except.ok.injEq]
    exact ⟨fun h => ⟨henc, h.symm⟩, fun h => h.2.symm⟩
  · rw [herr]
    exact ⟨fun h => (by cases h), fun h => absurd h.1 hbad⟩

theorem domainLabels_ne_nil (unicodeToLower : GoString → GoString) (domain : GoString) :
    domainLabels unicodeToLower domain ≠ [] :=
  List.splitOnP_ne_nil _ _

end DnsGateway.Dnsenc
