import DnsGateway.Bpf.Egress

/-!
# `nat_rewrite_addr` on the bytes of a packet

What each return code says about the packet, and what a rewrite does to the checksums in it.
-/

namespace DnsGateway.Bpf

open DnsGateway.Reasoning

/-! ## The helpers as stores -/

theorem skbStoreBytes_data {ok : Bool} {skb skb' : SkBuff} {off : Nat} {w : List UInt8}
    (h : skbStoreBytes ok skb off w = some skb') :
    off + w.length ≤ skb.data.length ∧ skb'.data = overwrite skb.data off w := by
  unfold skbStoreBytes at h
  split at h
  next hin =>
    cases h
    exact ⟨hin.2, rfl⟩
  next => cases h

theorem l3CsumReplace_data {ok : Bool} {skb skb' : SkBuff} {off : Nat} {old new : UInt32}
    (h : l3CsumReplace ok skb off old new = some skb') :
    off + 2 ≤ skb.data.length ∧
      skb'.data = overwrite skb.data off (u16ToLE (csumReplace4 (u16At skb.data off) old new)) :=
  skbStoreBytes_data h

/-- What `bpf_l4_csum_replace` leaves in the field. -/
def mangled (check : UInt16) (old new : UInt32) : UInt16 :=
  if check = 0 then 0
  else if csumReplace4 check old new = 0 then 0xFFFF else csumReplace4 check old new

theorem l4CsumReplace_data {ok : Bool} {skb skb' : SkBuff} {off : Nat} {old new : UInt32}
    (h : l4CsumReplace ok skb off old new = some skb') :
    off + 2 ≤ skb.data.length ∧
      skb'.data = overwrite skb.data off (u16ToLE (mangled (u16At skb.data off) old new)) :=
  skbStoreBytes_data h

/-! ## All or nothing -/

/-- All three steps of a rewrite were applied. -/
def Applied (ok : Helpers) (skb : SkBuff) (addrOff udpCsumOff : Nat) (oldAddr newAddr : UInt32)
    (skb' : SkBuff) : Prop :=
  ∃ skb1 skb2, skbStoreBytes (ok .storeNew) skb addrOff (u32ToLE newAddr) = some skb1 ∧
    l3CsumReplace (ok .l3New) skb1 (ethHlen + 10) oldAddr newAddr = some skb2 ∧
    l4CsumReplace (ok .l4New) skb2 udpCsumOff oldAddr newAddr = some skb'

/-- A step failed, and then a call that should have reverted the steps before it. -/
inductive RevertFailed (ok : Helpers) (skb : SkBuff) (addrOff udpCsumOff : Nat)
    (oldAddr newAddr : UInt32) : Prop
  | ipCsum (skb1 : SkBuff)
      (hstore : skbStoreBytes (ok .storeNew) skb addrOff (u32ToLE newAddr) = some skb1)
      (hl3 : l3CsumReplace (ok .l3New) skb1 (ethHlen + 10) oldAddr newAddr = none)
      (hback : skbStoreBytes (ok .storeOld) skb1 addrOff (u32ToLE oldAddr) = none)
  | udpCsum (skb1 skb2 : SkBuff)
      (hstore : skbStoreBytes (ok .storeNew) skb addrOff (u32ToLE newAddr) = some skb1)
      (hl3 : l3CsumReplace (ok .l3New) skb1 (ethHlen + 10) oldAddr newAddr = some skb2)
      (hl4 : l4CsumReplace (ok .l4New) skb2 udpCsumOff oldAddr newAddr = none)
      (hback : l3CsumReplace (ok .l3Old) skb2 (ethHlen + 10) newAddr oldAddr = none ∨
        skbStoreBytes (ok .storeOld)
          ((l3CsumReplace (ok .l3Old) skb2 (ethHlen + 10) newAddr oldAddr).getD skb2) addrOff
          (u32ToLE oldAddr) = none)

/-- The return codes of `nat_rewrite_addr`, as its comment describes them. -/
structure AllOrNothing (ok : Helpers) (skb : SkBuff) (addrOff udpCsumOff : Nat)
    (oldAddr newAddr : UInt32) (r : Int × SkBuff) : Prop where
  rc : r.1 = 0 ∨ r.1 = -1 ∨ r.1 = -2
  applied : r.1 = 0 → Applied ok skb addrOff udpCsumOff oldAddr newAddr r.2
  identical : r.1 = -1 → r.2 = skb
  revertFailed : r.1 = -2 ↔ RevertFailed ok skb addrOff udpCsumOff oldAddr newAddr

/-- The IP checksum field holds the second zero of one's-complement arithmetic when the rewrite
gets to it, and the address does not cover it. -/
def SecondZero (skb : SkBuff) (addrOff : Nat) (newAddr : UInt32) : Prop :=
  addrOff + 4 ≤ skb.len ∧ ethHlen + 12 ≤ skb.len ∧
    ¬ (addrOff ≤ ethHlen + 10 ∧ ethHlen + 12 ≤ addrOff + 4) ∧
    u16At (overwrite skb.data addrOff (u32ToLE newAddr)) (ethHlen + 10) = 0xFFFF

theorem storeAddr_sameOutside {b : Bool} {s s' : SkBuff} {addrOff : Nat} {a : UInt32}
    (h : skbStoreBytes b s addrOff (u32ToLE a) = some s') : SameOutside (Field addrOff 4) s s' :=
  skbStoreBytes_sameOutside h

-- Two packets that agree outside the address field and in the address are the same.
theorem SameOutside.eq_of_u32At {a b : SkBuff} {off : Nat} (h : SameOutside (Field off 4) a b)
    (hin : off + 4 ≤ a.len) (hw : u32At b.data off = u32At a.data off) : b = a := by
  have hlen : b.data.length = a.data.length := h.len
  have hwin : window b.data off 4 = window a.data off 4 := by
    rw [window_eq_u32ToLE hin, window_eq_u32ToLE (by rw [hlen]; exact hin), hw]
  apply SkBuff.ext
  apply List.ext_getElem?
  intro i
  by_cases hi : Field off 4 i
  · obtain ⟨hlo, hhi⟩ := hi
    have hget := congrArg (fun l : List UInt8 => l[i - off]?) hwin
    simpa only [window_getElem? _ _ _ _ (show i - off < 4 by omega),
      Nat.add_sub_cancel' hlo] using hget
  · exact h.same i hi

-- The checksum field after it was replaced and replaced back.
theorem ipCsum_back {b b' : Bool} {s s' s'' : SkBuff} {o n : UInt32} {off : Nat}
    (h1 : l3CsumReplace b s off o n = some s') (h2 : l3CsumReplace b' s' off n o = some s'') :
    s''.data = overwrite s.data off
      (u16ToLE (if u16At s.data off = 0xFFFF then 0 else u16At s.data off)) := by
  obtain ⟨hin, hd1⟩ := l3CsumReplace_data h1
  obtain ⟨-, hd2⟩ := l3CsumReplace_data h2
  rw [hd2, hd1, u16At_overwrite_same _ hin, csumReplace4_swap]
  exact overwrite_overwrite rfl hin

-- With every revert going through, only a second zero in the checksum field is not restored.
theorem ipCsum_revert {b1 b2 b4 b5 : Bool} {skb skb1 skb2 skb3 skb4 : SkBuff} {addrOff : Nat}
    {newAddr : UInt32} (hzero : ¬ SecondZero skb addrOff newAddr)
    (h1 : skbStoreBytes b1 skb addrOff (u32ToLE newAddr) = some skb1)
    (h2 : l3CsumReplace b2 skb1 (ethHlen + 10) (u32At skb.data addrOff) newAddr = some skb2)
    (h4 : l3CsumReplace b4 skb2 (ethHlen + 10) newAddr (u32At skb.data addrOff) = some skb3)
    (h5 : skbStoreBytes b5 skb3 addrOff (u32ToLE (u32At skb.data addrOff)) = some skb4) :
    skb4 = skb := by
  obtain ⟨hin1, hd1⟩ := skbStoreBytes_data h1
  obtain ⟨hin2, -⟩ := l3CsumReplace_data h2
  have hf1 := storeAddr_sameOutside h1
  have hlen1 : skb1.data.length = skb.data.length := hf1.len
  have hd3 := ipCsum_back h2 h4
  have hf13 : SameOutside (Field addrOff 4) skb1 skb3 := by
    by_cases hff : u16At skb1.data (ethHlen + 10) = 0xFFFF
    · -- The field is covered by the address, which is stored back.
      have hcover : addrOff ≤ ethHlen + 10 ∧ ethHlen + 12 ≤ addrOff + 4 := by
        by_contra hout
        apply hzero
        rw [hd1] at hff
        exact ⟨hin1, by rw [SkBuff.len, ← hlen1]; exact hin2, hout, hff⟩
      apply ((l3CsumReplace_sameOutside h2).trans (l3CsumReplace_sameOutside h4)).mono
      intro i hi
      unfold Field at hi ⊢
      omega
    · rw [if_neg hff, ← window_eq_u16ToLE hin2, overwrite_window hin2] at hd3
      rw [SkBuff.ext hd3]
      exact SameOutside.refl _ _
  have hf := (hf1.trans hf13).trans (storeAddr_sameOutside h5)
  exact hf.eq_of_u32At hin1 (skbStoreBytes_u32At h5)

theorem natRewriteAddr_rc (ok : Helpers) (skb : SkBuff) (addrOff udpCsumOff : Nat)
    (oldAddr newAddr : UInt32) :
    (natRewriteAddr ok skb addrOff udpCsumOff oldAddr newAddr).1 = 0 ∨
      (natRewriteAddr ok skb addrOff udpCsumOff oldAddr newAddr).1 = -1 ∨
      (natRewriteAddr ok skb addrOff udpCsumOff oldAddr newAddr).1 = -2 := by
  have hend := natRewriteAddr_end ok skb addrOff udpCsumOff oldAddr newAddr
  generalize natRewriteAddr ok skb addrOff udpCsumOff oldAddr newAddr = r at hend
  cases hend <;> simp

-- A return of 0 comes from the three steps.
theorem natRewriteAddr_applied {ok : Helpers} {skb : SkBuff} {addrOff udpCsumOff : Nat}
    {oldAddr newAddr : UInt32}
    (h : (natRewriteAddr ok skb addrOff udpCsumOff oldAddr newAddr).1 = 0) :
    Applied ok skb addrOff udpCsumOff oldAddr newAddr
      (natRewriteAddr ok skb addrOff udpCsumOff oldAddr newAddr).2 := by
  have hend := natRewriteAddr_end ok skb addrOff udpCsumOff oldAddr newAddr
  generalize natRewriteAddr ok skb addrOff udpCsumOff oldAddr newAddr = r at h hend
  cases hend with
  | applied skb1 skb2 skb3 h1 h2 h3 => exact ⟨skb1, skb2, h1, h2, h3⟩
  | storeFailed => simp at h
  | ipFailed => simp at h
  | ipStuck => simp at h
  | udpFailed => simp at h
  | addrStuck => simp at h
  | csumStuck => simp at h
  | bothStuck => simp at h

-- A return of -2 comes from a failing revert, and the other way round.
theorem natRewriteAddr_revertFailed_iff (ok : Helpers) (skb : SkBuff) (addrOff udpCsumOff : Nat)
    (oldAddr newAddr : UInt32) :
    (natRewriteAddr ok skb addrOff udpCsumOff oldAddr newAddr).1 = -2 ↔
      RevertFailed ok skb addrOff udpCsumOff oldAddr newAddr := by
  have hend := natRewriteAddr_end ok skb addrOff udpCsumOff oldAddr newAddr
  generalize natRewriteAddr ok skb addrOff udpCsumOff oldAddr newAddr = r at hend
  constructor
  · intro hrc
    cases hend with
    | storeFailed => simp at hrc
    | ipFailed => simp at hrc
    | ipStuck skb1 h1 h2 h3 => exact .ipCsum skb1 h1 h2 h3
    | applied => simp at hrc
    | udpFailed => simp at hrc
    | addrStuck skb1 skb2 skb3 h1 h2 h3 h4 h5 =>
        exact .udpCsum skb1 skb2 h1 h2 h3 (Or.inr (by rw [h4]; exact h5))
    | csumStuck skb1 skb2 skb4 h1 h2 h3 h4 h5 => exact .udpCsum skb1 skb2 h1 h2 h3 (Or.inl h4)
    | bothStuck skb1 skb2 h1 h2 h3 h4 h5 => exact .udpCsum skb1 skb2 h1 h2 h3 (Or.inl h4)
  · intro hfail
    cases hfail with
    | ipCsum skb1 hstore hl3 hback => cases hend <;> simp_all
    | udpCsum skb1 skb2 hstore hl3 hl4 hback => cases hend <;> simp_all

/-- The helpers let the rewrite get to the UDP checksum, where the update fails or is refused for
its offset, and let both reverts through. -/
structure UdpReverted (ok : Helpers) (skb : SkBuff) (udpCsumOff : Nat) : Prop where
  storeNew : ok .storeNew = true
  l3New : ok .l3New = true
  l4New : ¬ ((ok .l4New = true ∧ udpCsumOff ≤ 0xFFFF ∧ udpCsumOff % 2 = 0) ∧
    udpCsumOff + 2 ≤ skb.len)
  l3Old : ok .l3Old = true
  storeOld : ok .storeOld = true

-- A return of -1 leaves the packet as it was, but for a second zero that went through the reverts.
theorem natRewriteAddr_identical {ok : Helpers} {skb : SkBuff} {addrOff udpCsumOff : Nat}
    {newAddr : UInt32} (hzero : ¬ (SecondZero skb addrOff newAddr ∧ UdpReverted ok skb udpCsumOff))
    (h : (natRewriteAddr ok skb addrOff udpCsumOff (u32At skb.data addrOff) newAddr).1 = -1) :
    (natRewriteAddr ok skb addrOff udpCsumOff (u32At skb.data addrOff) newAddr).2 = skb := by
  have hend := natRewriteAddr_end ok skb addrOff udpCsumOff (u32At skb.data addrOff) newAddr
  generalize natRewriteAddr ok skb addrOff udpCsumOff (u32At skb.data addrOff) newAddr = r
    at h hend
  cases hend with
  | storeFailed => rfl
  | ipFailed skb1 skb' h1 h2 h3 =>
      have hsame := (storeAddr_sameOutside h1).trans (storeAddr_sameOutside h3)
      exact hsame.eq_of_u32At (skbStoreBytes_data h1).1 (skbStoreBytes_u32At h3)
  | udpFailed skb1 skb2 skb3 skb4 h1 h2 h3 h4 h5 =>
      have hlen2 : skb2.len = skb.len :=
        (l3CsumReplace_sameOutside h2).len.trans (storeAddr_sameOutside h1).len
      have hreverted : UdpReverted ok skb udpCsumOff := by
        constructor
        · exact (skbStoreBytes_isSome_iff.mp (Option.isSome_of_eq_some h1)).1
        · exact (l3CsumReplace_isSome_iff.mp (Option.isSome_of_eq_some h2)).1.1
        · rw [← hlen2, ← l4CsumReplace_isSome_iff, h3]
          exact Bool.false_ne_true
        · exact (l3CsumReplace_isSome_iff.mp (Option.isSome_of_eq_some h4)).1.1
        · exact (skbStoreBytes_isSome_iff.mp (Option.isSome_of_eq_some h5)).1
      exact ipCsum_revert (fun hz => hzero ⟨hz, hreverted⟩) h1 h2 h4 h5
  | applied => simp at h
  | ipStuck => simp at h
  | addrStuck => simp at h
  | csumStuck => simp at h
  | bothStuck => simp at h

theorem u16OfLE_eq_ffff {b0 b1 : UInt8} (h : u16OfLE b0 b1 = 0xFFFF) : b0 = 0xFF ∧ b1 = 0xFF := by
  have h0 := b0.toNat_lt
  have h1 := b1.toNat_lt
  have hn := congrArg UInt16.toNat h
  rw [u16OfLE, UInt16.toNat_ofNat'] at hn
  change (b0.toNat + 2 ^ 8 * b1.toNat) % 2 ^ 16 = 0xFFFF at hn
  rw [← UInt8.toNat_inj, ← UInt8.toNat_inj]
  change b0.toNat = 0xFF ∧ b1.toNat = 0xFF
  omega

-- With the UDP checksum failing, both reverts are made.
theorem natRewriteAddr_reverted {ok : Helpers} {skb : SkBuff} {addrOff udpCsumOff : Nat}
    (h : UdpReverted ok skb udpCsumOff) (oldAddr newAddr : UInt32) (haddr : addrOff + 4 ≤ skb.len)
    (hip : ethHlen + 12 ≤ skb.len) :
    ∃ skb1 skb2 skb3 skb4,
      skbStoreBytes true skb addrOff (u32ToLE newAddr) = some skb1 ∧
      l3CsumReplace true skb1 (ethHlen + 10) oldAddr newAddr = some skb2 ∧
      l3CsumReplace true skb2 (ethHlen + 10) newAddr oldAddr = some skb3 ∧
      skbStoreBytes true skb3 addrOff (u32ToLE oldAddr) = some skb4 ∧
      natRewriteAddr ok skb addrOff udpCsumOff oldAddr newAddr = (-1, skb4) := by
  have store : ∀ (s : SkBuff) (a : UInt32), s.len = skb.len →
      ∃ s', skbStoreBytes true s addrOff (u32ToLE a) = some s' := fun s a hlen =>
    Option.isSome_iff_exists.mp (skbStoreBytes_isSome_iff.mpr ⟨rfl, by rw [hlen]; exact haddr⟩)
  have csum : ∀ (s : SkBuff) (o n : UInt32), s.len = skb.len →
      ∃ s', l3CsumReplace true s (ethHlen + 10) o n = some s' := fun s o n hlen =>
    Option.isSome_iff_exists.mp (l3CsumReplace_isSome_iff.mpr
      ⟨⟨rfl, by decide, by decide⟩, by rw [hlen]; exact hip⟩)
  obtain ⟨skb1, h1⟩ := store skb newAddr rfl
  have hlen1 := (skbStoreBytes_sameOutside h1).len
  obtain ⟨skb2, h2⟩ := csum skb1 oldAddr newAddr hlen1
  have hlen2 := (l3CsumReplace_sameOutside h2).len.trans hlen1
  obtain ⟨skb3, h3⟩ := csum skb2 newAddr oldAddr hlen2
  have hlen3 := (l3CsumReplace_sameOutside h3).len.trans hlen2
  obtain ⟨skb4, h4⟩ := store skb3 oldAddr hlen3
  refine ⟨skb1, skb2, skb3, skb4, h1, h2, h3, h4, ?_⟩
  have hl4 : l4CsumReplace (ok .l4New) skb2 udpCsumOff oldAddr newAddr = none := by
    apply Option.not_isSome_iff_eq_none.mp
    rw [l4CsumReplace_isSome_iff, hlen2]
    exact h.l4New
  unfold natRewriteAddr
  rw [h.storeNew, h.l3New, h.l3Old, h.storeOld, h1]
  simp only [h2, hl4, h3, h4]

-- A second zero comes back as the first.
theorem secondZero_lost {ok : Helpers} {skb : SkBuff} {addrOff udpCsumOff : Nat} {newAddr : UInt32}
    (h : SecondZero skb addrOff newAddr) (hreverted : UdpReverted ok skb udpCsumOff) :
    (natRewriteAddr ok skb addrOff udpCsumOff (u32At skb.data addrOff) newAddr).1 = -1 ∧
      (natRewriteAddr ok skb addrOff udpCsumOff (u32At skb.data addrOff) newAddr).2 ≠ skb := by
  obtain ⟨haddr, hip, hout, hff⟩ := h
  obtain ⟨skb1, skb2, skb3, skb4, h1, h2, h3, h4, hr⟩ :=
    natRewriteAddr_reverted hreverted (u32At skb.data addrOff) newAddr haddr hip
  rw [hr]
  refine ⟨rfl, fun heq => ?_⟩
  change skb4 = skb at heq
  have hd3 := ipCsum_back h2 h3
  have hin2 := (l3CsumReplace_data h2).1
  rw [← (skbStoreBytes_data h1).2] at hff
  rw [if_pos hff] at hd3
  -- A byte of the field outside the address: it was `0xFF` and is `0` now.
  obtain ⟨i, hi, hfield⟩ : ∃ i, ¬ Field addrOff 4 i ∧
      (i = ethHlen + 10 ∨ i = ethHlen + 10 + 1) := by
    by_cases hlo : addrOff ≤ ethHlen + 10
    · exact ⟨ethHlen + 10 + 1, by unfold Field; omega, Or.inr rfl⟩
    · exact ⟨ethHlen + 10, by unfold Field; omega, Or.inl rfl⟩
  have hnow : skb4.data[i]? = some 0 := by
    rw [(storeAddr_sameOutside h4).same i hi, hd3,
      overwrite_getElem?_inside hin2 (by omega) (by rw [u16ToLE_length]; omega)]
    rcases hfield with rfl | rfl
    · rfl
    · rfl
  have hwas : skb.data[i]? = some 0xFF := by
    have hbytes := u16OfLE_eq_ffff hff
    rw [← (storeAddr_sameOutside h1).same i hi]
    rcases hfield with rfl | rfl
    · rw [List.getElem?_eq_getElem (by omega), ← hbytes.1, byteAt, List.getD_eq_getElem]
    · rw [List.getElem?_eq_getElem (by omega), ← hbytes.2, byteAt, List.getD_eq_getElem]
  rw [heq, hwas] at hnow
  cases hnow

-- The codes 0 and -2 are as described whatever happens.
theorem allOrNothing_iff_identical (ok : Helpers) (skb : SkBuff) (addrOff udpCsumOff : Nat)
    (oldAddr newAddr : UInt32) :
    AllOrNothing ok skb addrOff udpCsumOff oldAddr newAddr
      (natRewriteAddr ok skb addrOff udpCsumOff oldAddr newAddr) ↔
    ((natRewriteAddr ok skb addrOff udpCsumOff oldAddr newAddr).1 = -1 →
      (natRewriteAddr ok skb addrOff udpCsumOff oldAddr newAddr).2 = skb) := by
  constructor
  · exact fun h => h.identical
  · exact fun h => ⟨natRewriteAddr_rc .., natRewriteAddr_applied, h,
      natRewriteAddr_revertFailed_iff ..⟩

-- Where the byte identity behind a return of -1 breaks.
theorem natRewriteAddr_identical_iff (ok : Helpers) (skb : SkBuff) (addrOff udpCsumOff : Nat)
    (newAddr : UInt32) :
    ((natRewriteAddr ok skb addrOff udpCsumOff (u32At skb.data addrOff) newAddr).1 = -1 →
      (natRewriteAddr ok skb addrOff udpCsumOff (u32At skb.data addrOff) newAddr).2 = skb) ↔
    ¬ (SecondZero skb addrOff newAddr ∧ UdpReverted ok skb udpCsumOff) := by
  constructor
  · intro h hzero
    obtain ⟨hrc, hne⟩ := secondZero_lost hzero.1 hzero.2
    exact hne (h hrc)
  · exact natRewriteAddr_identical

/-- `nat_rewrite_addr` is all or nothing on the bytes of a packet, for the given outcomes of its
helper calls, unless the IP checksum field holds the second zero of one's-complement arithmetic and
only the update of the UDP checksum fails. -/
theorem natRewriteAddr_allOrNothing_iff (ok : Helpers) (skb : SkBuff) (addrOff udpCsumOff : Nat)
    (newAddr : UInt32) :
    AllOrNothing ok skb addrOff udpCsumOff (u32At skb.data addrOff) newAddr
      (natRewriteAddr ok skb addrOff udpCsumOff (u32At skb.data addrOff) newAddr) ↔
    ¬ (SecondZero skb addrOff newAddr ∧ UdpReverted ok skb udpCsumOff) := by
  rw [allOrNothing_iff_identical]
  exact natRewriteAddr_identical_iff ..

/-- Every helper succeeds but the update of the UDP checksum. -/
def Helpers.noL4 : Helpers := fun call => decide (call ≠ .l4New)

theorem UdpReverted.noL4 (skb : SkBuff) (udpCsumOff : Nat) :
    UdpReverted .noL4 skb udpCsumOff :=
  ⟨rfl, rfl, fun h => Bool.false_ne_true h.1.1, rfl, rfl⟩

/-- It is so whatever the helpers do if and only if the field does not hold the second zero. -/
theorem natRewriteAddr_always_allOrNothing_iff (skb : SkBuff) (addrOff udpCsumOff : Nat)
    (newAddr : UInt32) :
    (∀ ok : Helpers, AllOrNothing ok skb addrOff udpCsumOff (u32At skb.data addrOff) newAddr
      (natRewriteAddr ok skb addrOff udpCsumOff (u32At skb.data addrOff) newAddr)) ↔
    ¬ SecondZero skb addrOff newAddr := by
  constructor
  · intro h hzero
    have hnoL4 := (allOrNothing_iff_identical ..).mp (h .noL4)
    exact (natRewriteAddr_identical_iff ..).mp hnoL4 ⟨hzero, .noL4 ..⟩
  · intro hzero ok
    rw [allOrNothing_iff_identical, natRewriteAddr_identical_iff]
    exact fun h => hzero h.1

/-- A packet from 10.0.0.5:40000 to 10.96.0.10:53 without payload whose IP header verifies with the
checksum `0xFFFF`. -/
def secondZeroPacket : SkBuff where
  data := [0x02, 0, 0, 0, 0, 0x01, 0x02, 0, 0, 0, 0, 0x02, 0x08, 0x00,
    0x45, 0, 0, 0x1C, 0x26, 0x63, 0x40, 0, 64, 17, 0xFF, 0xFF, 10, 0, 0, 5, 10, 96, 0, 10,
    0x9C, 0x40, 0, 53, 0, 8, 0, 0]
  len_lt := by decide

/-- The update of the UDP checksum fails and both reverts succeed, so the code is -1; the IP
checksum is 0 now. -/
theorem secondZeroPacket_changed :
    Verifies (window secondZeroPacket.data 14 20) ∧
      (natRewriteAddr .noL4 secondZeroPacket 30 40 secondZeroPacket.daddr
        (u32OfLE 10 0 0 2)).1 = -1 ∧
      (natRewriteAddr .noL4 secondZeroPacket 30 40 secondZeroPacket.daddr
        (u32OfLE 10 0 0 2)).2 ≠ secondZeroPacket := by
  refine ⟨by decide, ?_⟩
  exact secondZero_lost ⟨by decide, by decide, by decide, by decide⟩ (.noL4 _ 40)

/-! ## Checksums -/

namespace SkBuff

def ipHeader (skb : SkBuff) : List UInt8 := window skb.data ethHlen (4 * skb.ihl)

/-- Source, destination, zero, protocol and length of a UDP datagram of `n` bytes. -/
def pseudoHeader (skb : SkBuff) (n : Nat) : List UInt8 :=
  window skb.data 26 8 ++ [0, byteAt skb.data 23, UInt8.ofNat (n / 2 ^ 8), UInt8.ofNat n]

/-- The UDP header and the payload of a datagram of `n` bytes. -/
def datagram (skb : SkBuff) (n : Nat) : List UInt8 := window skb.data skb.udpOffset n

def udpCheck (skb : SkBuff) : UInt16 := u16At skb.data (skb.udpOffset + 6)

end SkBuff

/-- The checksums of `b` are as good as those of `a`. -/
structure ChecksumsKept (a b : SkBuff) : Prop where
  ip : Verifies a.ipHeader → Verifies b.ipHeader
  absent : a.udpCheck = 0 → b.udpCheck = 0
  udp : ∀ n, 8 ≤ n → a.udpOffset + n ≤ a.len → a.udpCheck ≠ 0 →
    Verifies (a.pseudoHeader n ++ a.datagram n) →
      b.udpCheck ≠ 0 ∧ Verifies (b.pseudoHeader n ++ b.datagram n)

theorem mangled_spec {check : UInt16} (old new : UInt32) (h : check ≠ 0) :
    mangled check old new ≠ 0 ∧
      (mangled check old new).toNat + new.toNat ≡ check.toNat + old.toNat [MOD 0xFFFF] := by
  have hspec := (csumReplace4_spec check old new).2
  unfold mangled
  rw [if_neg h]
  by_cases hz : csumReplace4 check old new = 0
  · rw [hz] at hspec
    rw [if_pos hz]
    -- The two zeros are congruent.
    have htwo : (0xFFFF : UInt16).toNat ≡ (0 : UInt16).toNat [MOD 0xFFFF] := by decide
    exact ⟨by decide, (htwo.add_right _).trans hspec⟩
  · rw [if_neg hz]
    exact ⟨hz, hspec⟩

/-- The bytes of the packet through the three steps of a rewrite whose address lies between the IP
checksum and the UDP header. -/
structure RewriteSteps (d0 d1 d2 d3 : List UInt8) (addrOff udpOffset : Nat)
    (oldAddr newAddr : UInt32) : Prop where
  addr : d1 = overwrite d0 addrOff (u32ToLE newAddr)
  ipCsum : d2 = overwrite d1 24 (u16ToLE (csumReplace4 (u16At d1 24) oldAddr newAddr))
  udpCsum : d3 = overwrite d2 (udpOffset + 6)
    (u16ToLE (mangled (u16At d2 (udpOffset + 6)) oldAddr newAddr))
  old : oldAddr = u32At d0 addrOff
  place : 26 ≤ addrOff ∧ addrOff + 4 ≤ 34 ∧ 34 ≤ udpOffset
  aligned : addrOff % 2 = 0 ∧ udpOffset % 2 = 0
  present : udpOffset + 8 ≤ d0.length

namespace RewriteSteps

variable {d0 d1 d2 d3 : List UInt8} {addrOff udpOffset : Nat} {oldAddr newAddr : UInt32}

theorem length1 (h : RewriteSteps d0 d1 d2 d3 addrOff udpOffset oldAddr newAddr) :
    d1.length = d0.length := by
  have hp := h.place
  have hin := h.present
  rw [h.addr, overwrite_length (by rw [u32ToLE_length]; omega)]

theorem length2 (h : RewriteSteps d0 d1 d2 d3 addrOff udpOffset oldAddr newAddr) :
    d2.length = d0.length := by
  have hp := h.place
  have hin := h.present
  have h1 := h.length1
  rw [h.ipCsum, overwrite_length (by rw [u16ToLE_length]; omega), h1]

-- Storing the address exchanges the old words for the new ones.
theorem exchange (h : RewriteSteps d0 d1 d2 d3 addrOff udpOffset oldAddr newAddr) (lo n : Nat)
    (hlo : lo ≤ addrOff) (hhi : addrOff + 4 ≤ lo + n) (hin : lo + n ≤ d0.length)
    (heven : lo % 2 = 0) :
    wordSum (window d1 lo n) + oldAddr.toNat ≡ wordSum (window d0 lo n) + newAddr.toNat
      [MOD 0xFFFF] := by
  have hal := h.aligned
  have hsum := wordSum_window_overwrite (u32ToLE newAddr) lo n addrOff hlo hhi hin (by omega)
    (by rw [u32ToLE_length])
  have hold : window d0 addrOff (u32ToLE newAddr).length = u32ToLE oldAddr := by
    rw [h.old]
    exact window_eq_u32ToLE (by omega)
  rw [← h.addr, hold] at hsum
  calc wordSum (window d1 lo n) + oldAddr.toNat
      ≡ wordSum (window d1 lo n) + wordSum (u32ToLE oldAddr) [MOD 0xFFFF] :=
        (wordSum_u32ToLE oldAddr).symm.add_left _
    _ = wordSum (window d0 lo n) + wordSum (u32ToLE newAddr) := hsum
    _ ≡ wordSum (window d0 lo n) + newAddr.toNat [MOD 0xFFFF] :=
        (wordSum_u32ToLE newAddr).add_left _

-- The IP checksum makes up for the exchange in the header.
theorem ipHeader (h : RewriteSteps d0 d1 d2 d3 addrOff udpOffset oldAddr newAddr) {n : Nat}
    (hn : 20 ≤ n) (hudp : 14 + n = udpOffset) :
    wordSum (window d3 14 n) ≡ wordSum (window d0 14 n) [MOD 0xFFFF] := by
  have hp := h.place
  have hin := h.present
  have hlen1 := h.length1
  have hlen2 := h.length2
  have hx := h.exchange 14 n (by omega) (by omega) (by omega) (by decide)
  have hsum := wordSum_window_overwrite
    (u16ToLE (csumReplace4 (u16At d1 24) oldAddr newAddr)) 14 n 24
    (by decide) (by rw [u16ToLE_length]; omega) (show 14 + n ≤ d1.length by omega) (by decide)
    (by rw [u16ToLE_length])
  have hold : window d1 24 2 = u16ToLE (u16At d1 24) := window_eq_u16ToLE (by omega)
  rw [← h.ipCsum, u16ToLE_length, hold, wordSum_u16ToLE, wordSum_u16ToLE] at hsum
  have hsame : window d3 14 n = window d2 14 n := by
    rw [h.udpCsum]
    exact window_overwrite_outside (by rw [u16ToLE_length]; omega) (by omega)
  have hspec := (csumReplace4_spec (u16At d1 24) oldAddr newAddr).2
  rw [hsame]
  unfold Nat.ModEq at hx hspec ⊢
  omega

-- The pseudo-header takes part in the exchange only.
theorem addresses (h : RewriteSteps d0 d1 d2 d3 addrOff udpOffset oldAddr newAddr) :
    wordSum (window d3 26 8) + oldAddr.toNat ≡ wordSum (window d0 26 8) + newAddr.toNat
      [MOD 0xFFFF] := by
  have hp := h.place
  have hin := h.present
  have hlen1 := h.length1
  have hlen2 := h.length2
  have hx := h.exchange 26 8 (by omega) (by omega) (by omega) (by decide)
  have h2 : window d2 26 8 = window d1 26 8 := by
    rw [h.ipCsum]
    exact window_overwrite_outside (by rw [u16ToLE_length]; omega) (Or.inl (by simp))
  have h3 : window d3 26 8 = window d2 26 8 := by
    rw [h.udpCsum]
    exact window_overwrite_outside (by rw [u16ToLE_length]; omega) (by omega)
  rwa [h3, h2]

-- Behind the addresses only the UDP checksum changes.
theorem before_udpCsum (h : RewriteSteps d0 d1 d2 d3 addrOff udpOffset oldAddr newAddr)
    {lo : Nat} (hlo : udpOffset ≤ lo) (n : Nat) : window d2 lo n = window d0 lo n := by
  have hp := h.place
  have hin := h.present
  have hlen1 := h.length1
  rw [h.ipCsum, window_overwrite_outside (by rw [u16ToLE_length]; omega)
    (by rw [u16ToLE_length]; omega), h.addr, window_overwrite_outside
    (by rw [u32ToLE_length]; omega) (by rw [u32ToLE_length]; omega)]

theorem udpCheck (h : RewriteSteps d0 d1 d2 d3 addrOff udpOffset oldAddr newAddr) :
    u16At d2 (udpOffset + 6) = u16At d0 (udpOffset + 6) ∧
      u16At d3 (udpOffset + 6) = mangled (u16At d0 (udpOffset + 6)) oldAddr newAddr := by
  have hin := h.present
  have hlen2 := h.length2
  have hsame : u16At d2 (udpOffset + 6) = u16At d0 (udpOffset + 6) := by
    rw [← Nat.add_zero (udpOffset + 6), ← u16At_window d2 _ 2 0 (by decide),
      ← u16At_window d0 _ 2 0 (by decide), Nat.add_zero, h.before_udpCsum (by omega)]
  refine ⟨hsame, ?_⟩
  rw [h.udpCsum, hsame]
  exact u16At_overwrite_same _ (by omega)

-- In the datagram only the checksum field changes.
theorem datagram (h : RewriteSteps d0 d1 d2 d3 addrOff udpOffset oldAddr newAddr) {n : Nat}
    (hn : 8 ≤ n) (hfits : udpOffset + n ≤ d0.length) :
    wordSum (window d3 udpOffset n) + (u16At d0 (udpOffset + 6)).toNat =
      wordSum (window d0 udpOffset n) +
        (mangled (u16At d0 (udpOffset + 6)) oldAddr newAddr).toNat := by
  have hlen2 := h.length2
  have hsum := wordSum_window_overwrite
    (u16ToLE (mangled (u16At d2 (udpOffset + 6)) oldAddr newAddr)) udpOffset n
    (udpOffset + 6) (by omega) (by rw [u16ToLE_length]; omega)
    (show udpOffset + n ≤ d2.length by omega) (by omega) (by rw [u16ToLE_length])
  have hold : window d2 (udpOffset + 6) 2 = u16ToLE (u16At d2 (udpOffset + 6)) :=
    window_eq_u16ToLE (by omega)
  rw [← h.udpCsum, u16ToLE_length, hold, wordSum_u16ToLE, wordSum_u16ToLE,
    h.before_udpCsum (Nat.le_refl _), h.udpCheck.1] at hsum
  exact hsum

end RewriteSteps

theorem Applied.steps {ok : Helpers} {skb skb' : SkBuff} {addrOff : Nat} {newAddr : UInt32}
    (h : Applied ok skb addrOff (skb.udpOffset + 6) (u32At skb.data addrOff) newAddr skb')
    (hudp : skb.IsUdp) (haddr : addrOff = 26 ∨ addrOff = 30) :
    ∃ d1 d2, RewriteSteps skb.data d1 d2 skb'.data addrOff skb.udpOffset
      (u32At skb.data addrOff) newAddr := by
  obtain ⟨skb1, skb2, h1, h2, h3⟩ := h
  have hihl := hudp.ihl_ge
  have hoff : skb.udpOffset = 14 + 4 * skb.ihl := rfl
  exact ⟨skb1.data, skb2.data, (skbStoreBytes_data h1).2, (l3CsumReplace_data h2).2,
    (l4CsumReplace_data h3).2, rfl, by omega, by omega, hudp.present⟩

-- The rewrite keeps the bytes in front of the IP checksum.
theorem Applied.frame {ok : Helpers} {skb skb' : SkBuff} {addrOff : Nat} {old newAddr : UInt32}
    (h : Applied ok skb addrOff (skb.udpOffset + 6) old newAddr skb') (hudp : skb.IsUdp)
    (haddr : addrOff = 26 ∨ addrOff = 30) :
    skb'.data.length = skb.data.length ∧
      ∀ i, i < 24 → byteAt skb'.data i = byteAt skb.data i := by
  obtain ⟨skb1, skb2, h1, h2, h3⟩ := h
  have hihl := hudp.ihl_ge
  have hoff : skb.udpOffset = 14 + 4 * skb.ihl := rfl
  have hf := ((storeAddr_natField h1).trans (ipCsum_natField h2)).trans (udpCsum_natField h3)
  refine ⟨hf.len, fun i hi => ?_⟩
  have hout : ¬ NatField addrOff (skb.udpOffset + 6) i := by
    unfold NatField Field
    simp only [ethHlen]
    omega
  simp only [byteAt, List.getD_eq_getElem?_getD, hf.same i hout]

-- The sum over a datagram and its pseudo-header, piece by piece.
theorem wordSum_udp {skb : SkBuff} (hudp : skb.IsUdp) (hlen : 34 ≤ skb.data.length) (n : Nat) :
    wordSum (skb.pseudoHeader n ++ skb.datagram n) =
      wordSum (window skb.data 26 8) +
        wordSum [0, 17, UInt8.ofNat (n / 2 ^ 8), UInt8.ofNat n] + wordSum (skb.datagram n) := by
  have hw : (window skb.data 26 8).length = 8 := window_length hlen
  rw [SkBuff.pseudoHeader, hudp.protocol, wordSum_append, wordSum_append (by rw [hw])]
  simp [hw]

-- A rewrite of either address keeps the checksums.
theorem Applied.checksumsKept {ok : Helpers} {skb skb' : SkBuff} {addrOff : Nat}
    {newAddr : UInt32}
    (h : Applied ok skb addrOff (skb.udpOffset + 6) (u32At skb.data addrOff) newAddr skb')
    (hudp : skb.IsUdp) (haddr : addrOff = 26 ∨ addrOff = 30) : ChecksumsKept skb skb' := by
  obtain ⟨d1, d2, hs⟩ := h.steps hudp haddr
  obtain ⟨hlen, hframe⟩ := h.frame hudp haddr
  have hihl := hudp.ihl_ge
  have hoff : skb.udpOffset = 14 + 4 * skb.ihl := rfl
  have hin : skb.udpOffset + 8 ≤ skb.data.length := hudp.present
  have hsameIhl : skb'.ihl = skb.ihl := by
    rw [SkBuff.ihl, SkBuff.ihl, hframe 14 (by decide)]
  have hsameOff : skb'.udpOffset = skb.udpOffset := by
    rw [SkBuff.udpOffset, SkBuff.udpOffset, hsameIhl]
  have hudp' : skb'.IsUdp := by
    refine ⟨?_, ?_, by rw [hsameIhl]; exact hihl, ?_, by rw [hsameOff, SkBuff.len, hlen]; exact hin⟩
    · rw [hframe 12 (by decide), hframe 13 (by decide)]
      exact hudp.etherType
    · rw [hframe 23 (by decide)]
      exact hudp.protocol
    · rw [hframe 20 (by decide), hframe 21 (by decide)]
      exact hudp.unfragmented
  have hcheck : skb'.udpCheck = mangled skb.udpCheck (u32At skb.data addrOff) newAddr := by
    rw [SkBuff.udpCheck, hsameOff]
    exact hs.udpCheck.2
  refine ⟨fun hver => ?_, fun hzero => ?_, fun n hn hfits hne hver => ?_⟩
  · rw [verifies_iff, SkBuff.ipHeader] at hver
    rw [verifies_iff, SkBuff.ipHeader, hsameIhl]
    have hmod := hs.ipHeader (n := 4 * skb.ihl) (by omega) rfl
    have hfirst : byteAt skb'.data ethHlen ≠ 0 := by
      intro hz
      have hzero : skb'.ihl = 0 := by
        rw [SkBuff.ihl]
        change (byteAt skb'.data ethHlen).toNat % 16 = 0
        rw [hz]
        rfl
      omega
    exact ⟨wordSum_window_ne_zero hfirst (by omega), hmod.trans hver.2⟩
  · rw [hcheck, hzero]
    rfl
  · have hspec := mangled_spec (u32At skb.data addrOff) newAddr hne
    rw [hcheck]
    refine ⟨hspec.1, ?_⟩
    rw [verifies_iff, wordSum_udp hudp (by omega)] at hver
    rw [verifies_iff, wordSum_udp hudp' (by omega)]
    have hdgm := hs.datagram hn hfits
    have hadr := hs.addresses
    have hproto : wordSum [0, 17, UInt8.ofNat (n / 2 ^ 8), UInt8.ofNat n] ≠ 0 := by
      simp only [wordSum]
      change 0 + 2 ^ 8 * 17 + _ ≠ 0
      omega
    have hsum := hver.2
    rw [SkBuff.datagram] at hsum
    rw [SkBuff.datagram, hsameOff]
    refine ⟨by omega, ?_⟩
    have hudpSpec := hspec.2
    rw [SkBuff.udpCheck] at hudpSpec
    unfold Nat.ModEq at hadr hsum hudpSpec ⊢
    omega

/-- A redirect of `dns_gateway_ingress` and a rewrite of `dns_gateway_egress` keep a good IP
checksum good, an absent UDP checksum absent and a good UDP checksum good and present, for every
header length and every payload. -/
theorem programs_keep_checksums (ok : Helpers) (now : UInt64) (skb : SkBuff) (m : Maps) :
    ((dnsGatewayIngress ok now skb m).natRc = some 0 →
      ChecksumsKept skb (dnsGatewayIngress ok now skb m).skb) ∧
    ((dnsGatewayEgress ok now skb m).natRc = some 0 →
      ChecksumsKept skb (dnsGatewayEgress ok now skb m).skb) := by
  constructor
  · intro hnat
    cases (ingress_end ok now skb m).2 with
    | early _ _ _ _ _ _ hnone => rw [hnone] at hnat; cases hnat
    | cluster _ _ _ _ _ _ _ _ hnone => rw [hnone] at hnat; cases hnat
    | insertFailed _ _ _ _ _ _ _ _ _ hnone => rw [hnone] at hnat; cases hnat
    | natFailed _ _ _ _ _ _ hrc _ _ _ hsome =>
        have hzero := Option.some.inj (hsome.symm.trans hnat)
        omega
    | redirected _ _ _ hadm _ _ hrc _ hskb _ _ =>
        rw [hskb]
        exact (natRewriteAddr_applied hrc).checksumsKept hadm.query.udp (Or.inr rfl)
  · intro hnat
    cases (egress_end ok now skb m).2 with
    | early _ _ _ hnone => rw [hnone] at hnat; cases hnat
    | miss _ _ _ _ hnone => rw [hnone] at hnat; cases hnat
    | stale _ _ _ _ _ _ hnone => rw [hnone] at hnat; cases hnat
    | natFailed _ _ _ _ hrc _ _ hsome =>
        have hzero := Option.some.inj (hsome.symm.trans hnat)
        omega
    | rewritten _ hresp _ _ hrc _ hskb _ =>
        rw [hskb]
        exact (natRewriteAddr_applied hrc).checksumsKept hresp.udp (Or.inl rfl)

end DnsGateway.Bpf
