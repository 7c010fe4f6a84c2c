import DnsGateway.Reasoning.Labels
import DnsGateway.Reasoning.LongestSuffix
import DnsGateway.Bpf.Programs

/-!
# The QNAME in the scratch buffer

The label walk and the suffix copy index the scratch buffer through masks.  Here they are read
against the bytes of the packet: `q` are the loaded bytes, the buffer is `Fresh` for `q`, and a
walk that ends inside `q` has found the labels of a length-prefixed name.
-/

namespace DnsGateway.Bpf

open DnsGateway.Reasoning

/-! ## Masks and clamps -/

theorem land_mask (n : Nat) : n &&& (maxDnsNameLen - 1) = n % 128 :=
  Nat.and_two_pow_sub_one_eq_mod n 7

theorem land_mask_of_lt {n : Nat} (h : n < maxDnsNameLen) : n &&& (maxDnsNameLen - 1) = n :=
  (land_mask n).trans (Nat.mod_eq_of_lt h)

-- The clamps compute the minimum; the mask only maps 128 to 0, which is mapped back.
theorem clampRemaining_eq {n : Nat} (hn : 1 ≤ n) : clampRemaining n = min n maxDnsNameLen := by
  unfold clampRemaining
  dsimp only
  rw [land_mask]
  have h128 : maxDnsNameLen = 128 := rfl
  by_cases hbig : n > maxDnsNameLen
  · rw [if_pos hbig, if_pos (by decide)]
    omega
  · rw [if_neg hbig]
    split <;> omega

/-! ## The loaded bytes -/

/-- The first `q.length` bytes of the buffer are `q`. -/
structure Fresh (buf : NameBuf) (q : List UInt8) : Prop where
  length_le : q.length ≤ maxDnsNameLen
  at_eq : ∀ i, i < q.length → NameBuf.at buf i = byteAt q i

theorem load_fresh (buf : NameBuf) {q : List UInt8} (hq : q.length ≤ maxDnsNameLen) :
    Fresh (NameBuf.load buf q) q := by
  refine ⟨hq, fun i hi => ?_⟩
  change byteAt ((q ++ buf.toList.drop q.length).take maxDnsNameLen) i = byteAt q i
  rw [byteAt, byteAt, List.getD_eq_getElem?_getD, List.getD_eq_getElem?_getD,
    List.getElem?_take_of_lt (by omega), List.getElem?_append_left hi]

/-- The part of the packet behind the DNS header that the program looks at. -/
def SkBuff.nameBytes (skb : SkBuff) : List UInt8 := skb.question.take maxDnsNameLen

theorem SkBuff.nameBytes_length_le (skb : SkBuff) : skb.nameBytes.length ≤ maxDnsNameLen := by
  rw [nameBytes, List.length_take]
  omega

-- What is loaded depends on the packet alone, and goes on top of the old buffer.
theorem loadQname_bytes (ok : Helpers) (skb : SkBuff) (qnameOffset : Nat) :
    ∃ loaded : Option (List UInt8),
      (∀ q, loaded = some q → 1 ≤ q.length ∧ q = window skb.data qnameOffset maxDnsNameLen) ∧
      (ok .loadQname = true → qnameOffset < skb.len → loaded ≠ none) ∧
      ∀ scratch, loadQname ok skb qnameOffset scratch =
        loaded.map fun q => (q.length, { scratch with qname := scratch.qname.load q }) := by
  have h128 : maxDnsNameLen = 128 := rfl
  by_cases hin : qnameOffset < skb.len
  · let remaining := min (skb.len - qnameOffset) maxDnsNameLen
    have hclamp : clampRemaining (skb.len - qnameOffset) = remaining := clampRemaining_eq (by omega)
    have hwin : window skb.data qnameOffset remaining =
        window skb.data qnameOffset maxDnsNameLen := by
      rw [window, window, List.take_eq_take_iff, List.length_drop]
      show min (min (skb.len - qnameOffset) maxDnsNameLen) (skb.len - qnameOffset) =
        min maxDnsNameLen (skb.len - qnameOffset)
      omega
    have hlen : (window skb.data qnameOffset remaining).length = remaining := by
      refine window_length ?_
      show qnameOffset + min (skb.len - qnameOffset) maxDnsNameLen ≤ skb.len
      omega
    refine ⟨skbLoadBytes (ok .loadQname) skb qnameOffset remaining, fun q hq => ?_, ?_, ?_⟩
    · rcases skbLoadBytes_eq_some_iff.mp hq with ⟨-, -, rfl⟩
      exact ⟨by omega, hwin⟩
    · intro hok _ hnone
      have hsome : skbLoadBytes (ok .loadQname) skb qnameOffset remaining = some _ :=
        skbLoadBytes_eq_some_iff.mpr ⟨hok, by omega, rfl⟩
      rw [hnone] at hsome
      cases hsome
    · intro scratch
      unfold loadQname
      rw [if_neg (by omega), if_neg (by omega)]
      dsimp only
      rw [hclamp]
      cases hload : skbLoadBytes (ok .loadQname) skb qnameOffset remaining with
      | none => rfl
      | some q =>
          rcases skbLoadBytes_eq_some_iff.mp hload with ⟨-, -, rfl⟩
          dsimp only [Option.map_some]
          rw [hlen]
  · refine ⟨none, fun q hq => absurd hq.symm (Option.some_ne_none q), fun _ h => absurd h hin, ?_⟩
    intro scratch
    unfold loadQname
    split
    · rfl
    · rw [if_pos (by omega)]
      rfl

theorem loadQname_fresh {ok : Helpers} {skb : SkBuff} {scratch scratch' : ScratchBuf}
    {qnameOffset remaining : Nat}
    (h : loadQname ok skb qnameOffset scratch = some (remaining, scratch')) :
    remaining = (window skb.data qnameOffset maxDnsNameLen).length ∧ 1 ≤ remaining ∧
      Fresh scratch'.qname (window skb.data qnameOffset maxDnsNameLen) := by
  rcases loadQname_bytes ok skb qnameOffset with ⟨loaded, hbytes, -, hload⟩
  rw [hload] at h
  rcases Option.map_eq_some_iff.mp h with ⟨q, hq, hpair⟩
  rcases hbytes q hq with ⟨hpos, rfl⟩
  cases hpair
  exact ⟨rfl, hpos, load_fresh _ (List.length_take_le _ _)⟩

-- A loaded QNAME is `nameBytes`, of length `remaining`, on top of the old buffer.
theorem loadQname_eq_some {ok : Helpers} {skb : SkBuff} {scratch scratch' : ScratchBuf}
    {remaining : Nat}
    (h : loadQname ok skb (skb.dnsOffset + 12) scratch = some (remaining, scratch')) :
    remaining = skb.nameBytes.length ∧ 1 ≤ remaining ∧ Fresh scratch'.qname skb.nameBytes :=
  loadQname_fresh h

-- The load happens whenever there is a byte behind the header.
theorem loadQname_isSome {ok : Helpers} (skb : SkBuff) (scratch : ScratchBuf)
    (hok : ok .loadQname = true) (hpos : 1 ≤ skb.nameBytes.length) :
    ∃ scratch', loadQname ok skb (skb.dnsOffset + 12) scratch =
      some (skb.nameBytes.length, scratch') := by
  have hin : skb.dnsOffset + 12 < skb.len := by
    rw [SkBuff.nameBytes, SkBuff.question, List.length_take, List.length_drop] at hpos
    show skb.dnsOffset + 12 < skb.data.length
    omega
  rcases loadQname_bytes ok skb (skb.dnsOffset + 12) with ⟨loaded, hbytes, hsome, hload⟩
  rcases Option.ne_none_iff_exists'.mp (hsome hok hin) with ⟨q, hq⟩
  rcases hbytes q hq with ⟨-, rfl⟩
  rw [hload, hq]
  exact ⟨_, rfl⟩

/-! ## The label walk -/

-- Labels that stand in the packet, closed by a zero byte or cut off by the loop bound, are walked
-- over.
theorem walkLabels_complete {buf : NameBuf} {q : List UInt8} (hf : Fresh buf q)
    {ls : List (List UInt8)} (hls : LabelsOk ls) {b : UInt8} (pre : List UInt8) {rest : List UInt8}
    {fuel : Nat} (hfuel : ls.length ≤ fuel) (hstop : b = 0 ∨ ls.length = fuel)
    (hq : q = pre ++ wireBody ls ++ b :: rest) (offs : List Nat) :
    walkLabels buf q.length fuel { labelOffsets := offs, pos := pre.length } =
      .done { labelOffsets := offs ++ offsetsFrom pre.length ls
              pos := pre.length + (wireBody ls).length } := by
  induction ls generalizing pre fuel offs with
  | nil =>
      cases fuel with
      | zero => simp only [walkLabels, offsetsFrom, wireBody, List.append_nil, List.length_nil,
          Nat.add_zero]
      | succ fuel =>
          have hb : b = 0 := hstop.resolve_right (by simp only [List.length_nil]; omega)
          have hlt : pre.length < q.length := by
            rw [hq]
            simp only [List.length_append, List.length_cons]
            omega
          have hbyte : NameBuf.at buf pre.length = 0 := by
            rw [hf.at_eq _ hlt, hq, byteAt, List.getD_eq_getElem?_getD, wireBody, List.append_nil,
              List.getElem?_append_right (Nat.le_refl _), Nat.sub_self, List.getElem?_cons_zero, hb]
            rfl
          have hle := hf.length_le
          rw [walkLabels]
          dsimp only
          rw [if_neg (by omega), land_mask_of_lt (by omega), hbyte,
            if_pos (show UInt8.toNat 0 = 0 from rfl), offsetsFrom, wireBody, List.append_nil,
            List.length_nil, Nat.add_zero]
  | cons l ls ih =>
      cases fuel with
      | zero => exact absurd hfuel (by simp only [List.length_cons]; omega)
      | succ fuel =>
          have hq' : q = (pre ++ UInt8.ofNat l.length :: l) ++ wireBody ls ++ b :: rest := by
            rw [hq, wireBody]
            simp only [List.append_assoc, List.cons_append]
          have hlt : pre.length < q.length := by
            rw [hq']
            simp only [List.length_append, List.length_cons]
            omega
          have hbyte : NameBuf.at buf pre.length = UInt8.ofNat l.length := by
            rw [hf.at_eq _ hlt, hq, byteAt, List.getD_eq_getElem?_getD, wireBody, List.append_assoc,
              List.getElem?_append_right (Nat.le_refl _), Nat.sub_self, List.cons_append,
              List.getElem?_cons_zero]
            rfl
          have hhead := hls.head
          have hle := hf.length_le
          rw [walkLabels]
          dsimp only
          rw [if_neg (by omega), land_mask_of_lt (by omega), hbyte, lengthByte_toNat hhead.2,
            if_neg (by omega), if_neg (by omega)]
          have hpos : pre.length + (1 + l.length) = (pre ++ UInt8.ofNat l.length :: l).length := by
            simp only [List.length_append, List.length_cons]
            omega
          rw [List.length_cons] at hfuel hstop
          rw [hpos, ih hls.tail _ (by omega) (hstop.imp_right fun h => by omega) hq'
            (offs ++ [pre.length]), ← hpos, offsetsFrom, List.append_assoc, List.singleton_append,
            wireBody_cons_length, Nat.add_assoc pre.length 1 l.length]
          congr 2
          omega

-- A walk that ends inside the loaded bytes has walked over labels that stand there.
theorem walkLabels_sound {buf : NameBuf} {q : List UInt8} (hf : Fresh buf q) {fuel : Nat}
    {s w : WalkState} (hw : walkLabels buf q.length fuel s = .done w)
    (hin : w.pos + 1 ≤ q.length) :
    ∃ ls, LabelsOk ls ∧ ls.length ≤ fuel ∧
      w = { labelOffsets := s.labelOffsets ++ offsetsFrom s.pos ls
            pos := s.pos + (wireBody ls).length } ∧
      q.drop s.pos = wireBody ls ++ q.drop w.pos ∧ (byteAt q w.pos = 0 ∨ ls.length = fuel) := by
  induction fuel generalizing s with
  | zero =>
      cases hw
      exact ⟨[], fun l hl => absurd hl List.not_mem_nil, Nat.le_refl _,
        by simp only [offsetsFrom, wireBody, List.append_nil, List.length_nil, Nat.add_zero],
        rfl, Or.inr rfl⟩
  | succ fuel ih =>
      have hle := hf.length_le
      rw [walkLabels] at hw
      dsimp only at hw
      split at hw
      · -- Stopped at the end of the bytes: then the walk did not end inside them.
        cases hw
        omega
      · rename_i hlt
        rw [land_mask_of_lt (by omega), hf.at_eq _ (by omega)] at hw
        split at hw
        · rename_i hzero
          cases hw
          exact ⟨[], fun l hl => absurd hl List.not_mem_nil, Nat.zero_le _,
            by simp only [offsetsFrom, wireBody, List.append_nil, List.length_nil, Nat.add_zero],
            rfl, Or.inl (UInt8.toNat_inj.mp hzero)⟩
        · rename_i hnz
          split at hw
          · cases hw
          · rename_i h63
            rcases ih hw with ⟨ls, hls, hlen, hwe, hdrop, hstop⟩
            let n := (byteAt q s.pos).toNat
            let l := window q (s.pos + 1) n
            have hwpos : w.pos = s.pos + (1 + n) + (wireBody ls).length := by rw [hwe]
            have hl : l.length = n := window_length (by omega)
            have hbyte : UInt8.ofNat l.length = byteAt q s.pos := by
              rw [hl, UInt8.ofNat_toNat]
            refine ⟨l :: ls, ?_, by simp only [List.length_cons]; omega, ?_, ?_, ?_⟩
            · intro x hx
              rcases List.mem_cons.mp hx with rfl | hx
              · rw [hl]
                omega
              · exact hls x hx
            · rw [hwe, offsetsFrom, hl, wireBody_cons_length, hl, List.append_assoc,
                List.singleton_append]
              dsimp only
              rw [Nat.add_assoc s.pos 1 n, Nat.add_assoc s.pos (1 + n)]
            · -- Peel the length byte and the label off the remaining bytes.
              have hsplit : q.drop s.pos = byteAt q s.pos :: (l ++ q.drop (s.pos + (1 + n))) := by
                rw [List.drop_eq_getElem_cons (by omega), byteAt, List.getD_eq_getElem?_getD,
                  List.getElem?_eq_getElem (by omega), Option.getD_some]
                congr 1
                rw [← List.take_append_drop n (q.drop (s.pos + 1)), List.drop_drop,
                  Nat.add_assoc s.pos 1 n]
                rfl
              rw [hsplit, hdrop, wireBody, hbyte, List.cons_append, List.append_assoc]
            · exact hstop.imp_right fun h => by rw [List.length_cons, h]

/-! ## The suffix lookup -/

-- Copying a piece of the loaded bytes gives that piece, zero-padded.
theorem copySuffix_eq {buf : NameBuf} {q pre body rest : List UInt8} (hf : Fresh buf q)
    (hq : q = pre ++ body ++ rest) (hpos : 1 ≤ body.length) :
    copySuffix buf pre.length body.length = bufOf maxDnsNameLen body := by
  have hle := hf.length_le
  have hlen : q.length = pre.length + body.length + rest.length := by
    rw [hq, List.length_append, List.length_append]
  apply Subtype.ext
  change _ = (bufOf maxDnsNameLen body).toList
  rw [bufOf_toList (by omega)]
  unfold copySuffix
  dsimp only
  rw [land_mask_of_lt (by omega), if_neg (by omega)]
  apply List.ext_getElem?
  intro k
  by_cases hk : k < maxDnsNameLen
  · rw [List.getElem?_map, List.getElem?_range hk, Option.map_some]
    by_cases hkb : k < body.length
    · rw [if_pos hkb, land_mask_of_lt (by omega), hf.at_eq _ (by omega), padded_getElem?_lt hkb, hq,
        byteAt, List.getD_eq_getElem?_getD, List.append_assoc,
        List.getElem?_append_right (by omega), Nat.add_sub_cancel_left,
        List.getElem?_append_left hkb, List.getElem?_eq_getElem hkb, Option.getD_some]
    · rw [if_neg hkb, padded_getElem?_ge (by omega) hk]
  · rw [List.getElem?_eq_none (by rw [List.length_map, List.length_range]; omega),
      List.getElem?_eq_none (by rw [padded_length (by omega)]; omega)]

theorem u32Sub_of_le {a b : Nat} (hba : b ≤ a) (ha : a < 2 ^ 32) : u32Sub a b = a - b := by
  unfold u32Sub
  omega

/-- The rule table as the program probes it, with `b` in the place of the terminator. -/
def probeTable (rules : SuffixRules) (b : UInt8) (key : List (List UInt8)) : Option UInt32 :=
  (rules.lookup ⟨bufOf maxDnsNameLen (wireBody key ++ [b])⟩).map SuffixValue.action

-- One pass of the matching loop whose guards all hold. (Stated for the pair: the projection in
-- `matchSuffix_eq` would make the kernel evaluate the `__u32` arithmetic.)
theorem matchSuffix_step {ok : Helpers} {rules : SuffixRules} {buf : NameBuf} {total i n : Nat}
    {offs : List Nat} (fuel : Nat) (lookup : NameBuf) (hi : i < offs.length) (hmax : i < maxLabels)
    (hn : u32Sub total (offs.getD i 0) = n) (hpos : 1 ≤ n) (hle : n ≤ maxDnsNameLen) :
    matchSuffix ok rules buf total offs (fuel + 1) i lookup =
      match ruleLookup ok rules i (copySuffix buf (offs.getD i 0) n) with
      | some val => (some val.action, copySuffix buf (offs.getD i 0) n)
      | none => matchSuffix ok rules buf total offs fuel (i + 1)
          (copySuffix buf (offs.getD i 0) n) := by
  rw [matchSuffix, if_neg (by omega), if_neg (by omega)]
  dsimp only
  rw [hn]
  exact if_neg (by omega)

-- The matching loop probes the tails of the label list, longest first.
theorem matchSuffix_eq {ok : Helpers} (hok : ∀ i, ok (.ruleLookup i) = true) (rules : SuffixRules)
    {buf : NameBuf} {q rest : List UInt8} {ls : List (List UInt8)} {b : UInt8} (hf : Fresh buf q)
    (hq : q = wireBody ls ++ b :: rest) (hcount : ls.length ≤ maxLabels) (fuel i : Nat)
    (hfuel : ls.length ≤ i + fuel) (lookup : NameBuf) :
    (matchSuffix ok rules buf ((wireBody ls).length + 1) (offsetsFrom 0 ls) fuel i lookup).1 =
      firstTail (probeTable rules b) (ls.drop i) := by
  induction fuel generalizing i lookup with
  | zero => rw [matchSuffix, List.drop_of_length_le (by omega), firstTail]
  | succ fuel ih =>
      by_cases hi : ls.length ≤ i
      · rw [matchSuffix, offsetsFrom_length, if_pos hi, List.drop_of_length_le hi, firstTail]
      · have h128 : maxDnsNameLen = 128 := rfl
        have hle := hf.length_le
        have hlen : q.length = (wireBody ls).length + 1 + rest.length := by
          rw [hq, List.length_append, List.length_cons]
          omega
        have hbody := wireBody_take_drop ls i
        have hsum : (wireBody ls).length =
            (wireBody (ls.take i)).length + (wireBody (ls.drop i)).length := by
          rw [← List.length_append, ← hbody]
        have hpiece : q = wireBody (ls.take i) ++ (wireBody (ls.drop i) ++ [b]) ++ rest := by
          rw [hq, hbody]
          simp only [List.append_assoc, List.singleton_append]
        have hplen : (wireBody (ls.drop i) ++ [b]).length = (wireBody (ls.drop i)).length + 1 := by
          rw [List.length_append, List.length_singleton]
        have hoff : (offsetsFrom 0 ls).getD i 0 = (wireBody (ls.take i)).length := by
          rw [offsetsFrom_getD 0 ls i (by omega), Nat.zero_add]
        have hsub : u32Sub ((wireBody ls).length + 1) ((offsetsFrom 0 ls).getD i 0) =
            (wireBody (ls.drop i) ++ [b]).length := by
          rw [hoff, u32Sub_of_le (by omega) (by omega)]
          omega
        rw [matchSuffix_step fuel lookup (by rw [offsetsFrom_length]; omega) (by omega) hsub
          (by omega) (by omega), hoff, copySuffix_eq hf hpiece (by omega), ruleLookup,
          if_pos (hok i), List.drop_eq_getElem_cons (by omega : i < ls.length), firstTail,
          ← List.drop_eq_getElem_cons (by omega : i < ls.length), probeTable]
        cases rules.lookup ⟨bufOf maxDnsNameLen (wireBody (ls.drop i) ++ [b])⟩ with
        | some v => rfl
        | none => exact ih (i + 1) (by omega) _

end DnsGateway.Bpf
