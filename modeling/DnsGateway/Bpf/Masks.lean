import DnsGateway.Bpf.Qname

/-!
# Masks, clamps and guards

The kernel's verifier wants a bound where an index is used, so the program masks every index into
the scratch buffer and tests lengths again that the label walk has bounded already.  The walk is
taken pass by pass here: what holds at the head of each pass makes the masks the identity, keeps
the second guards from firing, and confines what is read to the bytes of this packet.
-/

namespace DnsGateway.Bpf

open DnsGateway.Reasoning

/-! ## The label walk, pass by pass -/

/-- How a pass through the loop body ends. -/
inductive PassResult where
  | leave (r : WalkResult)
  | next (s : WalkState)
  deriving DecidableEq, Repr

/-- The loop body of the label walk (lines 217-236). -/
def walkPass (qname : NameBuf) (remaining : Nat) (s : WalkState) : PassResult :=
  if s.pos ≥ remaining ∨ s.pos ≥ maxDnsNameLen then .leave (.done s)
  else
    let readIdx := s.pos &&& (maxDnsNameLen - 1)
    let labelLen := (NameBuf.at qname readIdx).toNat
    if labelLen = 0 then .leave (.done s)
    else if labelLen > 63 then .leave .badLength
    else .next { labelOffsets := s.labelOffsets ++ [s.pos], pos := s.pos + (1 + labelLen) }

-- The walk is its body, pass after pass.
theorem walkLabels_succ (qname : NameBuf) (remaining fuel : Nat) (s : WalkState) :
    walkLabels qname remaining (fuel + 1) s =
      match walkPass qname remaining s with
      | .leave r => r
      | .next t => walkLabels qname remaining fuel t := by
  rw [walkLabels, walkPass]
  dsimp only
  by_cases hend : s.pos ≥ remaining ∨ s.pos ≥ maxDnsNameLen
  · rw [if_pos hend, if_pos hend]
  · rw [if_neg hend, if_neg hend]
    split
    · rfl
    · split <;> rfl

/-- The walk comes to the head of pass `i` with the locals `s`; `i = MAX_LABELS` is behind the
loop. -/
inductive AtPass (qname : NameBuf) (remaining : Nat) : Nat → WalkState → Prop where
  | first : AtPass qname remaining 0 {}
  | next {i : Nat} {s t : WalkState} (hs : AtPass qname remaining i s) (hi : i < maxLabels)
      (hpass : walkPass qname remaining s = .next t) : AtPass qname remaining (i + 1) t

-- What is left of the walk at a pass it comes to is the walk from there.
theorem AtPass.walkLabels_eq {qname : NameBuf} {remaining i : Nat} {s : WalkState}
    (h : AtPass qname remaining i s) :
    i ≤ maxLabels ∧
      walkLabels qname remaining maxLabels {} = walkLabels qname remaining (maxLabels - i) s := by
  induction h with
  | first => exact ⟨Nat.zero_le _, rfl⟩
  | @next i s t hs hi hpass ih =>
      refine ⟨hi, ih.2.trans ?_⟩
      rw [show maxLabels - i = (maxLabels - (i + 1)) + 1 by omega, walkLabels_succ, hpass]

-- A pass that leaves the loop for its end has changed nothing.
theorem walkPass_leave {qname : NameBuf} {remaining : Nat} {s w : WalkState}
    (h : walkPass qname remaining s = .leave (.done w)) : w = s := by
  rw [walkPass] at h
  dsimp only at h
  split at h
  · cases h
    rfl
  · split at h
    · cases h
      rfl
    · split at h <;> cases h

-- A pass that goes on has stepped over a label.
theorem walkPass_next {qname : NameBuf} {remaining : Nat} {s t : WalkState}
    (h : walkPass qname remaining s = .next t) :
    t.labelOffsets = s.labelOffsets ++ [s.pos] ∧ s.pos + 2 ≤ t.pos := by
  rw [walkPass] at h
  dsimp only at h
  split at h
  · cases h
  · split at h
    · cases h
    · rename_i hzero
      split at h
      · cases h
      · cases h
        exact ⟨rfl, by dsimp only; omega⟩

-- The walk ends at a pass it comes to.
theorem AtPass.of_done {qname : NameBuf} {remaining i fuel : Nat} {s w : WalkState}
    (h : AtPass qname remaining i s) (hfuel : i + fuel = maxLabels)
    (hw : walkLabels qname remaining fuel s = .done w) : ∃ j, AtPass qname remaining j w := by
  induction fuel generalizing i s with
  | zero =>
      cases hw
      exact ⟨i, h⟩
  | succ fuel ih =>
      rw [walkLabels_succ] at hw
      cases hpass : walkPass qname remaining s with
      | next t =>
          rw [hpass] at hw
          exact ih (h.next (by omega) hpass) (by omega) hw
      | leave r =>
          rw [hpass] at hw
          cases hw
          exact ⟨i, walkPass_leave hpass ▸ h⟩

/-- At the head of pass `i` the walk has found `i` labels, in ascending order, each with a length
byte and at least one more byte in front of `pos`. -/
structure PassInv (i : Nat) (s : WalkState) : Prop where
  count : s.labelOffsets.length = i
  ascending : s.labelOffsets.Pairwise (· < ·)
  behind : ∀ o ∈ s.labelOffsets, o + 2 ≤ s.pos

theorem PassInv.step {qname : NameBuf} {remaining i : Nat} {s t : WalkState} (h : PassInv i s)
    (hpass : walkPass qname remaining s = .next t) : PassInv (i + 1) t := by
  rcases walkPass_next hpass with ⟨hoffs, hpos⟩
  refine ⟨?_, ?_, ?_⟩
  · rw [hoffs, List.length_append, h.count, List.length_singleton]
  · rw [hoffs, List.pairwise_append]
    refine ⟨h.ascending, List.pairwise_singleton _ _, fun o ho x hx => ?_⟩
    have hbehind := h.behind o ho
    rw [List.mem_singleton.mp hx]
    omega
  · intro o ho
    rw [hoffs, List.mem_append, List.mem_singleton] at ho
    rcases ho with ho | rfl
    · have hbehind := h.behind o ho
      omega
    · exact hpos

theorem AtPass.inv {qname : NameBuf} {remaining i : Nat} {s : WalkState}
    (h : AtPass qname remaining i s) : PassInv i s := by
  induction h with
  | first => exact ⟨rfl, List.Pairwise.nil, fun o ho => absurd ho List.not_mem_nil⟩
  | next _ _ hpass ih => exact ih.step hpass

theorem walkLabels_done_inv {qname : NameBuf} {remaining : Nat} {w : WalkState}
    (hw : walkLabels qname remaining maxLabels {} = .done w) :
    w.labelOffsets.length ≤ maxLabels ∧ PassInv w.labelOffsets.length w := by
  rcases AtPass.first.of_done (Nat.zero_add _) hw with ⟨i, hi⟩
  rw [hi.inv.count]
  exact ⟨hi.walkLabels_eq.1, hi.inv⟩

/-- The label walk with the index as it is. -/
def walkUnmasked (qname : NameBuf) (remaining : Nat) : Nat → WalkState → WalkResult
  | 0, s => .done s
  | fuel + 1, s =>
      if s.pos ≥ remaining then .done s
      else
        let labelLen := (NameBuf.at qname s.pos).toNat
        if labelLen = 0 then .done s
        else if labelLen > 63 then .badLength
        else walkUnmasked qname remaining fuel
          { labelOffsets := s.labelOffsets ++ [s.pos], pos := s.pos + (1 + labelLen) }

theorem walkLabels_unmasked (qname : NameBuf) {remaining : Nat} (hmax : remaining ≤ maxDnsNameLen)
    (fuel : Nat) (s : WalkState) :
    walkLabels qname remaining fuel s = walkUnmasked qname remaining fuel s := by
  induction fuel generalizing s with
  | zero => rfl
  | succ fuel ih =>
      rw [walkLabels, walkUnmasked]
      dsimp only
      by_cases hend : s.pos ≥ remaining
      · rw [if_pos (Or.inl hend), if_pos hend]
      · rw [if_neg (by omega), if_neg hend, land_mask_of_lt (by omega), ih]

/-! ## The matching loop -/

/-- The arithmetic of a suffix that starts at `start` is that of the naturals: the length does not
wrap and the masks on the copied indices change nothing. -/
structure PlainSuffix (remaining total start : Nat) : Prop where
  le_total : start ≤ total
  suffixLen : u32Sub total start = total - start
  length_ge : 3 ≤ total - start
  length_le : total - start ≤ 128
  index : ∀ k, k < total - start →
    ((start &&& (maxDnsNameLen - 1)) + k) &&& (maxDnsNameLen - 1) = start + k ∧
      start + k < remaining

theorem PlainSuffix.of_le {remaining total start : Nat} (hstart : start + 3 ≤ total)
    (htotal : total ≤ remaining) (hmax : remaining ≤ maxDnsNameLen) :
    PlainSuffix remaining total start := by
  have h128 : maxDnsNameLen = 128 := rfl
  refine ⟨by omega, u32Sub_of_le (by omega) (by omega), by omega, by omega, fun k hk => ?_⟩
  rw [land_mask_of_lt (by omega : start < maxDnsNameLen), land_mask_of_lt (by omega)]
  exact ⟨rfl, by omega⟩

-- Every label the walk has found starts such a suffix.
theorem PassInv.plainSuffix {remaining i : Nat} {w : WalkState} (h : PassInv i w)
    (hfits : w.pos + 1 ≤ remaining) (hmax : remaining ≤ maxDnsNameLen) :
    ∀ start ∈ w.labelOffsets, PlainSuffix remaining (w.pos + 1) start := by
  intro start hmem
  have hbehind := h.behind start hmem
  exact .of_le (by omega) hfits hmax

/-- The copy loop with the indices as they are. -/
def copyUnmasked (qname : NameBuf) (suffixStart suffixLen : Nat) : NameBuf :=
  ⟨(List.range maxDnsNameLen).map fun k =>
    if k < suffixLen then NameBuf.at qname (suffixStart + k) else 0, by
    rw [List.length_map, List.length_range]⟩

theorem copySuffix_unmasked {remaining total start : Nat} (h : PlainSuffix remaining total start)
    (qname : NameBuf) :
    copySuffix qname start (total - start) = copyUnmasked qname start (total - start) := by
  have hle : ¬ total - start > maxDnsNameLen := Nat.not_lt.mpr h.length_le
  apply Subtype.ext
  unfold copySuffix copyUnmasked
  dsimp only
  apply List.map_congr_left
  intro k _
  rw [if_neg hle]
  by_cases hk : k < total - start
  · rw [if_pos hk, if_pos hk, (h.index k hk).1]
  · rw [if_neg hk, if_neg hk]

/-- The matching loop over the suffixes that start at the offsets, with no guard. -/
def matchUnmasked (ok : Helpers) (rules : SuffixRules) (qname : NameBuf) (qnameTotalLen : Nat) :
    List Nat → Nat → NameBuf → Option UInt32 × NameBuf
  | [], _, lookup => (none, lookup)
  | suffixStart :: labelOffsets, i, _ =>
      let lookup := copyUnmasked qname suffixStart (qnameTotalLen - suffixStart)
      match ruleLookup ok rules i lookup with
      | some val => (some val.action, lookup)
      | none => matchUnmasked ok rules qname qnameTotalLen labelOffsets (i + 1) lookup

theorem matchSuffix_unmasked {remaining total : Nat} {offs : List Nat} (ok : Helpers)
    (rules : SuffixRules) (qname : NameBuf)
    (hplain : ∀ start ∈ offs, PlainSuffix remaining total start) (hcount : offs.length ≤ maxLabels)
    (fuel i : Nat) (hfuel : offs.length ≤ i + fuel) (lookup : NameBuf) :
    matchSuffix ok rules qname total offs fuel i lookup =
      matchUnmasked ok rules qname total (offs.drop i) i lookup := by
  induction fuel generalizing i lookup with
  | zero => rw [matchSuffix, List.drop_of_length_le (by omega), matchUnmasked]
  | succ fuel ih =>
      by_cases hi : offs.length ≤ i
      · rw [matchSuffix, if_pos hi, List.drop_of_length_le hi, matchUnmasked]
      · have hi : i < offs.length := by omega
        have hget : offs.getD i 0 = offs[i] := by
          rw [List.getD_eq_getElem?_getD, List.getElem?_eq_getElem hi, Option.getD_some]
        have h := hplain offs[i] (List.getElem_mem hi)
        have hge := h.length_ge
        rw [matchSuffix_step fuel lookup hi (by omega) (hget ▸ h.suffixLen) (by omega)
          h.length_le, hget, copySuffix_unmasked h, List.drop_eq_getElem_cons hi, matchUnmasked]
        cases ruleLookup ok rules i (copyUnmasked qname offs[i] (total - offs[i])) with
        | some val => rfl
        | none => exact ih (i + 1) (by omega) _

-- The matching loop on the labels of a walk that has ended inside the loaded bytes.
theorem matchSuffix_walked {qname : NameBuf} {remaining : Nat} {w : WalkState}
    (hw : walkLabels qname remaining maxLabels {} = .done w) (hfits : w.pos + 1 ≤ remaining)
    (hmax : remaining ≤ maxDnsNameLen) (ok : Helpers) (rules : SuffixRules)
    (buf lookup : NameBuf) :
    matchSuffix ok rules buf (w.pos + 1) w.labelOffsets maxLabels 0 lookup =
      matchUnmasked ok rules buf (w.pos + 1) w.labelOffsets 0 lookup := by
  rcases walkLabels_done_inv hw with ⟨hcount, hinv⟩
  exact matchSuffix_unmasked ok rules buf (hinv.plainSuffix hfits hmax) hcount maxLabels 0
    (by omega) lookup

/-! ## Every packet -/

/-- A pass of the walk begun in `s`: the offsets so far ascend, the length byte is read at `pos`,
and an offset is stored below the end of `label_offsets`. -/
structure PlainPass (qname : NameBuf) (remaining : Nat) (s : WalkState) : Prop where
  ascending : s.labelOffsets.Pairwise (· < ·)
  readIdx : ¬ (s.pos ≥ remaining ∨ s.pos ≥ maxDnsNameLen) → s.pos &&& (maxDnsNameLen - 1) = s.pos
  stored : ∀ t, walkPass qname remaining s = .next t →
    s.labelOffsets.length < 10 ∧ t.labelOffsets = s.labelOffsets ++ [s.pos]

/-- Whatever the packet and the old contents of the scratch buffer, the masks, the clamps and the
second guards leave the program as it would be without them. -/
theorem masks_change_nothing (ok : Helpers) (skb : SkBuff) (qnameOffset : Nat)
    (scratch : ScratchBuf) :
    (qnameOffset < skb.len →
      clampRemaining (skb.len - qnameOffset) = min (skb.len - qnameOffset) 128 ∧
        1 ≤ clampRemaining (skb.len - qnameOffset)) ∧
    ∀ remaining loaded, loadQname ok skb qnameOffset scratch = some (remaining, loaded) →
      (remaining = min (skb.len - qnameOffset) 128 ∧ 1 ≤ remaining) ∧
      (∀ i s, i < maxLabels → AtPass loaded.qname remaining i s →
        PlainPass loaded.qname remaining s) ∧
      walkLabels loaded.qname remaining maxLabels {} =
        walkUnmasked loaded.qname remaining maxLabels {} ∧
      ∀ w, walkLabels loaded.qname remaining maxLabels {} = .done w →
        w.labelOffsets.Pairwise (· < ·) ∧ w.labelOffsets.length ≤ 10 ∧
        (w.pos + 1 ≤ maxDnsNameLen ∧ w.pos + 1 ≤ remaining →
          (∀ start ∈ w.labelOffsets, PlainSuffix remaining (w.pos + 1) start) ∧
          ∀ rules lookup,
            matchSuffix ok rules loaded.qname (w.pos + 1) w.labelOffsets maxLabels 0 lookup =
              matchUnmasked ok rules loaded.qname (w.pos + 1) w.labelOffsets 0 lookup) := by
  have hclamp : qnameOffset < skb.len →
      clampRemaining (skb.len - qnameOffset) = min (skb.len - qnameOffset) 128 ∧
        1 ≤ clampRemaining (skb.len - qnameOffset) := by
    intro hin
    rw [clampRemaining_eq (by omega), show maxDnsNameLen = 128 from rfl]
    exact ⟨rfl, by omega⟩
  refine ⟨hclamp, fun remaining loaded hload => ?_⟩
  have hrem : remaining = min (skb.len - qnameOffset) 128 ∧ 1 ≤ remaining := by
    rcases loadQname_fresh hload with ⟨hlen, hpos, -⟩
    rw [window, List.length_take, List.length_drop, Nat.min_comm] at hlen
    exact ⟨hlen, hpos⟩
  have hmax : remaining ≤ maxDnsNameLen := hrem.1 ▸ Nat.min_le_right _ _
  refine ⟨hrem, fun i s hi hs => ⟨hs.inv.ascending, fun hin => ?_, fun t hpass => ?_⟩,
    walkLabels_unmasked _ hmax _ _, fun w hw => ?_⟩
  · exact land_mask_of_lt (by omega)
  · rw [hs.inv.count]
    exact ⟨hi, (walkPass_next hpass).1⟩
  · rcases walkLabels_done_inv hw with ⟨hcount, hinv⟩
    refine ⟨hinv.ascending, hcount, fun hfits => ⟨hinv.plainSuffix hfits.2 hmax, ?_⟩⟩
    intro rules lookup
    exact matchSuffix_walked hw hfits.2 hmax ok rules _ lookup

-- The shortest name there is, `a.`, has a suffix of three bytes.
example : walkLabels (bufOf maxDnsNameLen [1, 97, 0]) 7 maxLabels {} =
    .done { labelOffsets := [0], pos := 2 } := by decide

end DnsGateway.Bpf
