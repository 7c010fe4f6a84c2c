import DnsGateway.Reasoning.Checksum
import DnsGateway.Bpf.Types

/-!
# Kernel helpers and the NAT rewrite (`bpf/dns_gateway.c`, lines 48-110)

A helper call fails when the kernel says so (`Helpers`, one answer per call site) or when it
reaches outside the packet; a failing call changes no byte.
-/

namespace DnsGateway.Bpf

open DnsGateway.Reasoning

/-! ## Call sites -/

/-- The helper calls of one program run.  No site is reached twice in a run. -/
inductive HelperCall where
  | metricLookup (id : MetricId)
  | configLookup
  | scratchLookup
  | loadEth
  | loadIp
  | loadUdp
  | loadDns
  | loadQname
  | ruleLookup (i : Nat)
  | ctLookup
  | ctUpdate
  | ctDelete
  | storeNew
  | l3New
  | l4New
  | l3Old
  | storeOld
  deriving DecidableEq, Repr

/-- Which of the calls the kernel lets through. -/
abbrev Helpers := HelperCall → Bool

/-- The kernel lets every call through. -/
def Helpers.allOk : Helpers := fun _ => true

/-! ## The packet -/

/-- A packet buffer: `skb->len` is a 32-bit field. -/
structure SkBuff where
  data : List UInt8
  len_lt : data.length < 2 ^ 32
  deriving DecidableEq

@[ext] theorem SkBuff.ext {a b : SkBuff} (h : a.data = b.data) : a = b := by
  cases a
  cases b
  cases h
  rfl

def SkBuff.len (skb : SkBuff) : Nat := skb.data.length

/-- `bpf_skb_load_bytes`. -/
def skbLoadBytes (ok : Bool) (skb : SkBuff) (off n : Nat) : Option (List UInt8) :=
  if ok ∧ off + n ≤ skb.len then some (window skb.data off n) else none

/-- `bpf_skb_store_bytes` without flags. -/
def skbStoreBytes (ok : Bool) (skb : SkBuff) (off : Nat) (w : List UInt8) : Option SkBuff :=
  if h : ok ∧ off + w.length ≤ skb.len then
    some ⟨overwrite skb.data off w, by rw [overwrite_length h.2]; exact skb.len_lt⟩
  else none

/-- `bpf_l3_csum_replace` of a 4-byte field. -/
def l3CsumReplace (ok : Bool) (skb : SkBuff) (off : Nat) (old new : UInt32) : Option SkBuff :=
  skbStoreBytes (ok && decide (off ≤ 0xFFFF ∧ off % 2 = 0)) skb off
    (u16ToLE (csumReplace4 (u16At skb.data off) old new))

/-- `bpf_l4_csum_replace` with `BPF_F_PSEUDO_HDR | BPF_F_MARK_MANGLED_0 | 4`: an absent (zero)
checksum stays absent, and a computed zero is stored as `0xFFFF`. -/
def l4CsumReplace (ok : Bool) (skb : SkBuff) (off : Nat) (old new : UInt32) : Option SkBuff :=
  let check := u16At skb.data off
  let check' := csumReplace4 check old new
  skbStoreBytes (ok && decide (off ≤ 0xFFFF ∧ off % 2 = 0)) skb off
    (u16ToLE (if check = 0 then 0 else if check' = 0 then 0xFFFF else check'))

theorem skbLoadBytes_eq_some_iff {ok : Bool} {skb : SkBuff} {off n : Nat} {bs : List UInt8} :
    skbLoadBytes ok skb off n = some bs ↔
      ok = true ∧ off + n ≤ skb.len ∧ bs = window skb.data off n := by
  unfold skbLoadBytes
  split
  · rename_i h
    exact ⟨fun he => ⟨h.1, h.2, (Option.some.inj he).symm⟩, fun he => by rw [he.2.2]⟩
  · rename_i h
    exact ⟨fun he => (by cases he), fun he => absurd ⟨he.1, he.2.1⟩ h⟩

/-! ## What a store can change -/

/-- The positions of an `n`-byte field at `off`. -/
def Field (off n i : Nat) : Prop := off ≤ i ∧ i < off + n

instance (off n i : Nat) : Decidable (Field off n i) :=
  inferInstanceAs (Decidable (_ ∧ _))

/-- `b` has the length of `a` and differs from it at most in the bytes that `touched` allows. -/
structure SameOutside (touched : Nat → Prop) (a b : SkBuff) : Prop where
  len : b.len = a.len
  same : ∀ i, ¬ touched i → b.data[i]? = a.data[i]?

theorem SameOutside.refl (touched : Nat → Prop) (a : SkBuff) : SameOutside touched a a :=
  ⟨rfl, fun _ _ => rfl⟩

theorem SameOutside.trans {touched : Nat → Prop} {a b c : SkBuff}
    (hab : SameOutside touched a b) (hbc : SameOutside touched b c) :
    SameOutside touched a c :=
  ⟨hbc.len.trans hab.len, fun i hi => (hbc.same i hi).trans (hab.same i hi)⟩

theorem SameOutside.mono {P Q : Nat → Prop} {a b : SkBuff} (h : SameOutside P a b)
    (hPQ : ∀ i, P i → Q i) : SameOutside Q a b :=
  ⟨h.len, fun i hi => h.same i fun hp => hi (hPQ i hp)⟩

-- A word outside the touched bytes reads the same.
theorem SameOutside.u32At_eq {touched : Nat → Prop} {a b : SkBuff} {off : Nat}
    (h : SameOutside touched a b) (hout : ∀ i, off ≤ i → i < off + 4 → ¬ touched i) :
    u32At b.data off = u32At a.data off :=
  u32At_congr fun i hlo hhi => h.same i (hout i hlo hhi)

theorem skbStoreBytes_sameOutside {ok : Bool} {skb skb' : SkBuff} {off : Nat} {w : List UInt8}
    (h : skbStoreBytes ok skb off w = some skb') :
    SameOutside (Field off w.length) skb skb' := by
  unfold skbStoreBytes at h
  split at h
  · rename_i hin
    cases h
    refine ⟨overwrite_length hin.2, fun i hi => overwrite_getElem?_outside hin.2 ?_⟩
    unfold Field at hi
    omega
  · cases h

theorem skbStoreBytes_u32At {ok : Bool} {skb skb' : SkBuff} {off : Nat} {w : UInt32}
    (h : skbStoreBytes ok skb off (u32ToLE w) = some skb') : u32At skb'.data off = w := by
  unfold skbStoreBytes at h
  split at h
  · rename_i hin
    cases h
    exact u32At_overwrite_same w hin.2
  · cases h

theorem skbStoreBytes_isSome_iff {ok : Bool} {skb : SkBuff} {off : Nat} {w : List UInt8} :
    (skbStoreBytes ok skb off w).isSome ↔ ok = true ∧ off + w.length ≤ skb.len := by
  unfold skbStoreBytes
  split
  · rename_i h
    exact ⟨fun _ => h, fun _ => rfl⟩
  · rename_i h
    exact ⟨fun hs => absurd hs (by simp only [Option.isSome_none, Bool.false_eq_true,
      not_false_eq_true]), fun hc => absurd hc h⟩

theorem l3CsumReplace_sameOutside {ok : Bool} {skb skb' : SkBuff} {off : Nat} {old new : UInt32}
    (h : l3CsumReplace ok skb off old new = some skb') : SameOutside (Field off 2) skb skb' :=
  skbStoreBytes_sameOutside h

theorem l4CsumReplace_sameOutside {ok : Bool} {skb skb' : SkBuff} {off : Nat} {old new : UInt32}
    (h : l4CsumReplace ok skb off old new = some skb') : SameOutside (Field off 2) skb skb' :=
  skbStoreBytes_sameOutside h

-- A checksum helper at `off` works exactly when it is let through and `off` is an even, 16-bit
-- offset inside the packet.
theorem l3CsumReplace_isSome_iff {ok : Bool} {skb : SkBuff} {off : Nat} {old new : UInt32} :
    (l3CsumReplace ok skb off old new).isSome ↔
      (ok = true ∧ off ≤ 0xFFFF ∧ off % 2 = 0) ∧ off + 2 ≤ skb.len := by
  rw [l3CsumReplace, skbStoreBytes_isSome_iff, Bool.and_eq_true, decide_eq_true_eq,
    u16ToLE_length]

theorem l4CsumReplace_isSome_iff {ok : Bool} {skb : SkBuff} {off : Nat} {old new : UInt32} :
    (l4CsumReplace ok skb off old new).isSome ↔
      (ok = true ∧ off ≤ 0xFFFF ∧ off % 2 = 0) ∧ off + 2 ≤ skb.len := by
  rw [l4CsumReplace, skbStoreBytes_isSome_iff, Bool.and_eq_true, decide_eq_true_eq,
    u16ToLE_length]

/-! ## The NAT rewrite -/

/-- `nat_rewrite_addr`: rewrite the address at `addrOff` and fix both checksums, undoing the
steps already applied when a later one fails.  Returns `0`, `-1` (reverted) or `-2` (the revert
failed too), and the packet. -/
def natRewriteAddr (ok : Helpers) (skb : SkBuff) (addrOff udpCsumOff : Nat)
    (oldAddr newAddr : UInt32) : Int × SkBuff :=
  match skbStoreBytes (ok .storeNew) skb addrOff (u32ToLE newAddr) with
  | none => (-1, skb)
  | some skb1 =>
    match l3CsumReplace (ok .l3New) skb1 (ethHlen + 10) oldAddr newAddr with
    | none =>
      match skbStoreBytes (ok .storeOld) skb1 addrOff (u32ToLE oldAddr) with
      | none => (-2, skb1)
      | some skb' => (-1, skb')
    | some skb2 =>
      match l4CsumReplace (ok .l4New) skb2 udpCsumOff oldAddr newAddr with
      | some skb3 => (0, skb3)
      | none =>
        -- Both reverts are tried; either failing turns the code into -2.
        let (rc, skb3) : Int × SkBuff :=
          match l3CsumReplace (ok .l3Old) skb2 (ethHlen + 10) newAddr oldAddr with
          | none => (-2, skb2)
          | some skb3 => (-1, skb3)
        match skbStoreBytes (ok .storeOld) skb3 addrOff (u32ToLE oldAddr) with
        | none => (-2, skb3)
        | some skb4 => (rc, skb4)

/-- The eight ways a rewrite can end, with the results of the calls it made. -/
inductive NatEnd (ok : Helpers) (skb : SkBuff) (addrOff udpCsumOff : Nat)
    (oldAddr newAddr : UInt32) : Int × SkBuff → Prop
  | storeFailed (h1 : skbStoreBytes (ok .storeNew) skb addrOff (u32ToLE newAddr) = none) :
      NatEnd ok skb addrOff udpCsumOff oldAddr newAddr (-1, skb)
  | ipFailed (skb1 skb' : SkBuff)
      (h1 : skbStoreBytes (ok .storeNew) skb addrOff (u32ToLE newAddr) = some skb1)
      (h2 : l3CsumReplace (ok .l3New) skb1 (ethHlen + 10) oldAddr newAddr = none)
      (h3 : skbStoreBytes (ok .storeOld) skb1 addrOff (u32ToLE oldAddr) = some skb') :
      NatEnd ok skb addrOff udpCsumOff oldAddr newAddr (-1, skb')
  | ipStuck (skb1 : SkBuff)
      (h1 : skbStoreBytes (ok .storeNew) skb addrOff (u32ToLE newAddr) = some skb1)
      (h2 : l3CsumReplace (ok .l3New) skb1 (ethHlen + 10) oldAddr newAddr = none)
      (h3 : skbStoreBytes (ok .storeOld) skb1 addrOff (u32ToLE oldAddr) = none) :
      NatEnd ok skb addrOff udpCsumOff oldAddr newAddr (-2, skb1)
  | applied (skb1 skb2 skb3 : SkBuff)
      (h1 : skbStoreBytes (ok .storeNew) skb addrOff (u32ToLE newAddr) = some skb1)
      (h2 : l3CsumReplace (ok .l3New) skb1 (ethHlen + 10) oldAddr newAddr = some skb2)
      (h3 : l4CsumReplace (ok .l4New) skb2 udpCsumOff oldAddr newAddr = some skb3) :
      NatEnd ok skb addrOff udpCsumOff oldAddr newAddr (0, skb3)
  | udpFailed (skb1 skb2 skb3 skb4 : SkBuff)
      (h1 : skbStoreBytes (ok .storeNew) skb addrOff (u32ToLE newAddr) = some skb1)
      (h2 : l3CsumReplace (ok .l3New) skb1 (ethHlen + 10) oldAddr newAddr = some skb2)
      (h3 : l4CsumReplace (ok .l4New) skb2 udpCsumOff oldAddr newAddr = none)
      (h4 : l3CsumReplace (ok .l3Old) skb2 (ethHlen + 10) newAddr oldAddr = some skb3)
      (h5 : skbStoreBytes (ok .storeOld) skb3 addrOff (u32ToLE oldAddr) = some skb4) :
      NatEnd ok skb addrOff udpCsumOff oldAddr newAddr (-1, skb4)
  | addrStuck (skb1 skb2 skb3 : SkBuff)
      (h1 : skbStoreBytes (ok .storeNew) skb addrOff (u32ToLE newAddr) = some skb1)
      (h2 : l3CsumReplace (ok .l3New) skb1 (ethHlen + 10) oldAddr newAddr = some skb2)
      (h3 : l4CsumReplace (ok .l4New) skb2 udpCsumOff oldAddr newAddr = none)
      (h4 : l3CsumReplace (ok .l3Old) skb2 (ethHlen + 10) newAddr oldAddr = some skb3)
      (h5 : skbStoreBytes (ok .storeOld) skb3 addrOff (u32ToLE oldAddr) = none) :
      NatEnd ok skb addrOff udpCsumOff oldAddr newAddr (-2, skb3)
  | csumStuck (skb1 skb2 skb4 : SkBuff)
      (h1 : skbStoreBytes (ok .storeNew) skb addrOff (u32ToLE newAddr) = some skb1)
      (h2 : l3CsumReplace (ok .l3New) skb1 (ethHlen + 10) oldAddr newAddr = some skb2)
      (h3 : l4CsumReplace (ok .l4New) skb2 udpCsumOff oldAddr newAddr = none)
      (h4 : l3CsumReplace (ok .l3Old) skb2 (ethHlen + 10) newAddr oldAddr = none)
      (h5 : skbStoreBytes (ok .storeOld) skb2 addrOff (u32ToLE oldAddr) = some skb4) :
      NatEnd ok skb addrOff udpCsumOff oldAddr newAddr (-2, skb4)
  | bothStuck (skb1 skb2 : SkBuff)
      (h1 : skbStoreBytes (ok .storeNew) skb addrOff (u32ToLE newAddr) = some skb1)
      (h2 : l3CsumReplace (ok .l3New) skb1 (ethHlen + 10) oldAddr newAddr = some skb2)
      (h3 : l4CsumReplace (ok .l4New) skb2 udpCsumOff oldAddr newAddr = none)
      (h4 : l3CsumReplace (ok .l3Old) skb2 (ethHlen + 10) newAddr oldAddr = none)
      (h5 : skbStoreBytes (ok .storeOld) skb2 addrOff (u32ToLE oldAddr) = none) :
      NatEnd ok skb addrOff udpCsumOff oldAddr newAddr (-2, skb2)

theorem natRewriteAddr_end (ok : Helpers) (skb : SkBuff) (addrOff udpCsumOff : Nat)
    (oldAddr newAddr : UInt32) :
    NatEnd ok skb addrOff udpCsumOff oldAddr newAddr
      (natRewriteAddr ok skb addrOff udpCsumOff oldAddr newAddr) := by
  unfold natRewriteAddr
  split
  next h1 => exact .storeFailed h1
  next skb1 h1 =>
    split
    next h2 =>
      split
      next h3 => exact .ipStuck skb1 h1 h2 h3
      next skb' h3 => exact .ipFailed skb1 skb' h1 h2 h3
    next skb2 h2 =>
      split
      next skb3 h3 => exact .applied skb1 skb2 skb3 h1 h2 h3
      next h3 =>
        cases h4 : l3CsumReplace (ok .l3Old) skb2 (ethHlen + 10) newAddr oldAddr with
        | none =>
            dsimp only
            split
            next h5 => exact .bothStuck skb1 skb2 h1 h2 h3 h4 h5
            next skb4 h5 => exact .csumStuck skb1 skb2 skb4 h1 h2 h3 h4 h5
        | some skb3 =>
            dsimp only
            split
            next h5 => exact .addrStuck skb1 skb2 skb3 h1 h2 h3 h4 h5
            next skb4 h5 => exact .udpFailed skb1 skb2 skb3 skb4 h1 h2 h3 h4 h5

/-- The bytes a rewrite may touch: the IP checksum, the address and the UDP checksum. -/
def NatField (addrOff udpCsumOff i : Nat) : Prop :=
  Field (ethHlen + 10) 2 i ∨ Field addrOff 4 i ∨ Field udpCsumOff 2 i

/-- What `nat_rewrite_addr` promises its callers when the three fields do not overlap. -/
structure NatSpec (ok : Helpers) (skb : SkBuff) (addrOff udpCsumOff : Nat)
    (oldAddr newAddr : UInt32) (r : Int × SkBuff) : Prop where
  frame : SameOutside (NatField addrOff udpCsumOff) skb r.2
  rc : r.1 = 0 ∨ r.1 = -1 ∨ r.1 = -2
  rewritten : r.1 = 0 → u32At r.2.data addrOff = newAddr
  restored : r.1 ≠ 0 → ok .storeOld = true → oldAddr = u32At skb.data addrOff →
    u32At r.2.data addrOff = oldAddr
  reverted : ok .l3Old = true → ok .storeOld = true → r.1 ≠ -2

section NatSteps

variable {b : Bool} {s s' : SkBuff} {addrOff udpCsumOff : Nat} {o n a : UInt32}

theorem storeAddr_natField (h : skbStoreBytes b s addrOff (u32ToLE a) = some s') :
    SameOutside (NatField addrOff udpCsumOff) s s' :=
  (skbStoreBytes_sameOutside h).mono fun _ hi => Or.inr (Or.inl hi)

theorem ipCsum_natField (h : l3CsumReplace b s (ethHlen + 10) o n = some s') :
    SameOutside (NatField addrOff udpCsumOff) s s' :=
  (l3CsumReplace_sameOutside h).mono fun _ hi => Or.inl hi

theorem udpCsum_natField (h : l4CsumReplace b s udpCsumOff o n = some s') :
    SameOutside (NatField addrOff udpCsumOff) s s' :=
  (l4CsumReplace_sameOutside h).mono fun _ hi => Or.inr (Or.inr hi)

-- The checksum fields lie beside the address, so the checksum steps keep it.
theorem ipCsum_keeps_addr (hip : ethHlen + 12 ≤ addrOff)
    (h : l3CsumReplace b s (ethHlen + 10) o n = some s') :
    u32At s'.data addrOff = u32At s.data addrOff := by
  apply (l3CsumReplace_sameOutside h).u32At_eq
  intro i hlo hhi hf
  unfold Field at hf
  omega

theorem udpCsum_keeps_addr (hudp : addrOff + 4 ≤ udpCsumOff)
    (h : l4CsumReplace b s udpCsumOff o n = some s') :
    u32At s'.data addrOff = u32At s.data addrOff := by
  apply (l4CsumReplace_sameOutside h).u32At_eq
  intro i hlo hhi hf
  unfold Field at hf
  omega

-- A packet that took one address takes another at the same place, unless the helper fails.
theorem storeAddr_again {skb skb1 : SkBuff}
    (h1 : skbStoreBytes b skb addrOff (u32ToLE a) = some skb1) {b' : Bool}
    (hlen : s.len = skb.len) (hok : b' = true) :
    skbStoreBytes b' s addrOff (u32ToLE o) ≠ none := by
  have hfits := (skbStoreBytes_isSome_iff.mp (Option.isSome_of_eq_some h1)).2
  rw [u32ToLE_length] at hfits
  have hsome : (skbStoreBytes b' s addrOff (u32ToLE o)).isSome := by
    apply skbStoreBytes_isSome_iff.mpr
    rw [u32ToLE_length, hlen]
    exact ⟨hok, hfits⟩
  intro hnone
  rw [hnone] at hsome
  cases hsome

-- A checksum that was replaced once can be replaced back, unless the helper fails.
theorem ipCsum_again (h : l3CsumReplace b s (ethHlen + 10) o n = some s') {b' : Bool}
    (hok : b' = true) : l3CsumReplace b' s' (ethHlen + 10) n o ≠ none := by
  have hin := l3CsumReplace_isSome_iff.mp (Option.isSome_of_eq_some h)
  have hsome : (l3CsumReplace b' s' (ethHlen + 10) n o).isSome := by
    apply l3CsumReplace_isSome_iff.mpr
    rw [(l3CsumReplace_sameOutside h).len]
    exact ⟨⟨hok, hin.1.2⟩, hin.2⟩
  intro hnone
  rw [hnone] at hsome
  cases hsome

end NatSteps

theorem natRewriteAddr_spec (ok : Helpers) (skb : SkBuff) (addrOff udpCsumOff : Nat)
    (oldAddr newAddr : UInt32) (hip : ethHlen + 12 ≤ addrOff)
    (hudp : addrOff + 4 ≤ udpCsumOff) :
    NatSpec ok skb addrOff udpCsumOff oldAddr newAddr
      (natRewriteAddr ok skb addrOff udpCsumOff oldAddr newAddr) := by
  have hend := natRewriteAddr_end ok skb addrOff udpCsumOff oldAddr newAddr
  generalize natRewriteAddr ok skb addrOff udpCsumOff oldAddr newAddr = r at hend
  cases hend with
  | storeFailed h1 =>
      exact ⟨.refl _ _, by simp, by simp, fun _ _ h => h.symm, by simp⟩
  | ipFailed skb1 skb' h1 h2 h3 =>
      exact ⟨(storeAddr_natField h1).trans (storeAddr_natField h3), by simp, by simp,
        fun _ _ _ => skbStoreBytes_u32At h3, by simp⟩
  | ipStuck skb1 h1 h2 h3 =>
      have f1 : SameOutside (NatField addrOff udpCsumOff) skb skb1 := storeAddr_natField h1
      have hstuck : ok .storeOld ≠ true := fun hok => storeAddr_again h1 f1.len hok h3
      exact ⟨f1, by simp, by simp, fun _ hok _ => absurd hok hstuck, fun _ hok => absurd hok hstuck⟩
  | applied skb1 skb2 skb3 h1 h2 h3 =>
      refine ⟨((storeAddr_natField h1).trans (ipCsum_natField h2)).trans (udpCsum_natField h3),
        by simp, fun _ => ?_, by simp, by simp⟩
      rw [udpCsum_keeps_addr hudp h3, ipCsum_keeps_addr hip h2]
      exact skbStoreBytes_u32At h1
  | udpFailed skb1 skb2 skb3 skb4 h1 h2 h3 h4 h5 =>
      have f3 : SameOutside (NatField addrOff udpCsumOff) skb skb3 :=
        ((storeAddr_natField h1).trans (ipCsum_natField h2)).trans (ipCsum_natField h4)
      exact ⟨f3.trans (storeAddr_natField h5), by simp, by simp,
        fun _ _ _ => skbStoreBytes_u32At h5, by simp⟩
  | addrStuck skb1 skb2 skb3 h1 h2 h3 h4 h5 =>
      have f3 : SameOutside (NatField addrOff udpCsumOff) skb skb3 :=
        ((storeAddr_natField h1).trans (ipCsum_natField h2)).trans (ipCsum_natField h4)
      have hstuck : ok .storeOld ≠ true := fun hok => storeAddr_again h1 f3.len hok h5
      exact ⟨f3, by simp, by simp, fun _ hok _ => absurd hok hstuck, fun _ hok => absurd hok hstuck⟩
  | csumStuck skb1 skb2 skb4 h1 h2 h3 h4 h5 =>
      -- Both reverts are tried, so the address is restored even when the checksum is not.
      have f2 : SameOutside (NatField addrOff udpCsumOff) skb skb2 :=
        (storeAddr_natField h1).trans (ipCsum_natField h2)
      exact ⟨f2.trans (storeAddr_natField h5), by simp, by simp,
        fun _ _ _ => skbStoreBytes_u32At h5, fun hok _ => absurd h4 (ipCsum_again h2 hok)⟩
  | bothStuck skb1 skb2 h1 h2 h3 h4 h5 =>
      have f2 : SameOutside (NatField addrOff udpCsumOff) skb skb2 :=
        (storeAddr_natField h1).trans (ipCsum_natField h2)
      have hstuck : ok .storeOld ≠ true := fun hok => storeAddr_again h1 f2.len hok h5
      exact ⟨f2, by simp, by simp, fun _ hok _ => absurd hok hstuck, fun _ hok => absurd hok hstuck⟩

-- With every helper let through, a rewrite inside the packet succeeds.
theorem natRewriteAddr_ok {ok : Helpers} {skb : SkBuff} {addrOff udpCsumOff : Nat}
    (oldAddr newAddr : UInt32) (hnew : ok .storeNew = true) (hl3 : ok .l3New = true)
    (hl4 : ok .l4New = true) (haddr : addrOff + 4 ≤ skb.len) (hip : ethHlen + 12 ≤ skb.len)
    (hudp : udpCsumOff + 2 ≤ skb.len) (hsmall : udpCsumOff ≤ 0xFFFF)
    (heven : udpCsumOff % 2 = 0) :
    (natRewriteAddr ok skb addrOff udpCsumOff oldAddr newAddr).1 = 0 := by
  unfold natRewriteAddr
  have h1 : (skbStoreBytes (ok .storeNew) skb addrOff (u32ToLE newAddr)).isSome :=
    skbStoreBytes_isSome_iff.mpr ⟨hnew, haddr⟩
  rcases Option.isSome_iff_exists.mp h1 with ⟨skb1, h1⟩
  have f1 := (skbStoreBytes_sameOutside h1).len
  have h2 : (l3CsumReplace (ok .l3New) skb1 (ethHlen + 10) oldAddr newAddr).isSome :=
    l3CsumReplace_isSome_iff.mpr ⟨⟨hl3, by decide, by decide⟩, by rw [f1]; exact hip⟩
  rcases Option.isSome_iff_exists.mp h2 with ⟨skb2, h2⟩
  have f2 := (l3CsumReplace_sameOutside h2).len
  have h3 : (l4CsumReplace (ok .l4New) skb2 udpCsumOff oldAddr newAddr).isSome :=
    l4CsumReplace_isSome_iff.mpr ⟨⟨hl4, hsmall, heven⟩, by rw [f2, f1]; exact hudp⟩
  rcases Option.isSome_iff_exists.mp h3 with ⟨skb3, h3⟩
  rw [h1]
  simp only [h2, h3]

end DnsGateway.Bpf
