import DnsGateway.Bpf.Helpers

/-!
# Ethernet, IPv4, UDP and DNS headers

Both programs parse the same headers in the same order (`bpf/dns_gateway.c`, lines 129-159 and
386-417) and differ in the address and the port they compare.
-/

namespace DnsGateway.Bpf

open DnsGateway.Reasoning

/-- `bpf_htons` on a little-endian machine. -/
def htons (x : UInt16) : UInt16 := .ofNat (x.toNat / 2 ^ 8 + 2 ^ 8 * (x.toNat % 2 ^ 8))

/-- The 16-bit integer `(hi << 8) | lo`. -/
def be16 (hi lo : UInt8) : UInt16 := u16OfLE lo hi

/-- `struct iphdr`, the fields the programs read. -/
structure IpHdr where
  ihl : Nat
  fragOff : UInt16
  protocol : UInt8
  saddr : UInt32
  daddr : UInt32

def IpHdr.ofBytes (bs : List UInt8) : IpHdr where
  ihl := (byteAt bs 0).toNat % 16
  fragOff := u16At bs 6
  protocol := byteAt bs 9
  saddr := u32At bs 12
  daddr := u32At bs 16

/-- `struct udphdr`, the fields the programs read. -/
structure UdpHdr where
  source : UInt16
  dest : UInt16

def UdpHdr.ofBytes (bs : List UInt8) : UdpHdr where
  source := u16At bs 0
  dest := u16At bs 2

def IpHdr.udpOffset (iph : IpHdr) : Nat := ethHlen + iph.ihl * 4

/-- The header checks of both programs, `none` being the early return. -/
def parseUdp (ok : Helpers) (skb : SkBuff) (addrOk : IpHdr → Bool) (portOk : UdpHdr → Bool) :
    Option (IpHdr × UdpHdr) := do
  let eth ← skbLoadBytes (ok .loadEth) skb 0 14
  guard (u16At eth 12 = htons ethPIp)
  let ip ← skbLoadBytes (ok .loadIp) skb ethHlen 20
  let iph := IpHdr.ofBytes ip
  guard (iph.protocol = ipprotoUdp)
  guard (addrOk iph)
  guard (¬ (iph.ihl < 5 ∨ iph.ihl > 15))
  guard (iph.fragOff &&& htons 0x3FFF = 0)
  let u ← skbLoadBytes (ok .loadUdp) skb iph.udpOffset 8
  let udp := UdpHdr.ofBytes u
  guard (portOk udp)
  return (iph, udp)

/-! ## The same headers as a description of the packet -/

namespace SkBuff

def ihl (skb : SkBuff) : Nat := (byteAt skb.data 14).toNat % 16
def udpOffset (skb : SkBuff) : Nat := 14 + 4 * skb.ihl
def dnsOffset (skb : SkBuff) : Nat := skb.udpOffset + 8
def saddr (skb : SkBuff) : UInt32 := u32At skb.data 26
def daddr (skb : SkBuff) : UInt32 := u32At skb.data 30
def sport (skb : SkBuff) : UInt16 := u16At skb.data skb.udpOffset
def dport (skb : SkBuff) : UInt16 := u16At skb.data (skb.udpOffset + 2)
def txid (skb : SkBuff) : UInt16 :=
  be16 (byteAt skb.data skb.dnsOffset) (byteAt skb.data (skb.dnsOffset + 1))

def ipHdr (skb : SkBuff) : IpHdr := IpHdr.ofBytes (window skb.data ethHlen 20)
def udpHdr (skb : SkBuff) : UdpHdr := UdpHdr.ofBytes (window skb.data skb.udpOffset 8)

/-- The bytes after the 12-byte DNS header. -/
def question (skb : SkBuff) : List UInt8 := skb.data.drop (skb.dnsOffset + 12)

/-- An unfragmented IPv4/UDP packet whose headers are all present. -/
structure IsUdp (skb : SkBuff) : Prop where
  etherType : byteAt skb.data 12 = 0x08 ∧ byteAt skb.data 13 = 0x00
  protocol : byteAt skb.data 23 = 17
  ihl_ge : 5 ≤ skb.ihl
  unfragmented : (byteAt skb.data 20).toNat % 64 = 0 ∧ byteAt skb.data 21 = 0
  present : skb.udpOffset + 8 ≤ skb.len

theorem ihl_lt (skb : SkBuff) : skb.ihl < 16 := Nat.mod_lt _ (by decide)

@[simp] theorem ipHdr_ihl (skb : SkBuff) : skb.ipHdr.ihl = skb.ihl := by
  change (byteAt (window skb.data 14 20) 0).toNat % 16 = (byteAt skb.data 14).toNat % 16
  rw [byteAt_window _ _ _ _ (by decide)]

@[simp] theorem ipHdr_protocol (skb : SkBuff) : skb.ipHdr.protocol = byteAt skb.data 23 :=
  byteAt_window _ _ _ _ (by decide)

@[simp] theorem ipHdr_fragOff (skb : SkBuff) : skb.ipHdr.fragOff = u16At skb.data 20 :=
  u16At_window _ _ _ _ (by decide)

@[simp] theorem ipHdr_saddr (skb : SkBuff) : skb.ipHdr.saddr = skb.saddr :=
  u32At_window _ _ _ _ (by decide)

@[simp] theorem ipHdr_daddr (skb : SkBuff) : skb.ipHdr.daddr = skb.daddr :=
  u32At_window _ _ _ _ (by decide)

@[simp] theorem ipHdr_udpOffset (skb : SkBuff) : skb.ipHdr.udpOffset = skb.udpOffset := by
  rw [IpHdr.udpOffset, ipHdr_ihl, udpOffset, ethHlen, Nat.mul_comm]

@[simp] theorem udpHdr_source (skb : SkBuff) : skb.udpHdr.source = skb.sport :=
  u16At_window _ _ _ _ (by decide)

@[simp] theorem udpHdr_dest (skb : SkBuff) : skb.udpHdr.dest = skb.dport :=
  u16At_window _ _ _ _ (by decide)

end SkBuff

/-! ## The checks read off the packet -/

theorem htons_etherType_iff (b0 b1 : UInt8) :
    u16OfLE b0 b1 = htons ethPIp ↔ b0 = 0x08 ∧ b1 = 0x00 := by
  have h0 := b0.toNat_lt
  have h1 := b1.toNat_lt
  rw [← UInt16.toNat_inj, ← UInt8.toNat_inj, ← UInt8.toNat_inj, u16OfLE, UInt16.toNat_ofNat']
  change (b0.toNat + 2 ^ 8 * b1.toNat) % 2 ^ 16 = 8 ↔ b0.toNat = 8 ∧ b1.toNat = 0
  omega

private theorem byte_land_63 (b : UInt8) : b.toNat &&& 0x3F = 0 ↔ b.toNat % 64 = 0 := by
  rw [show (0x3F : Nat) = 2 ^ 6 - 1 from rfl, Nat.and_two_pow_sub_one_eq_mod]

private theorem byte_land_255 (b : UInt8) : b.toNat &&& 0xFF = b.toNat := by
  rw [show (0xFF : Nat) = 2 ^ 8 - 1 from rfl, Nat.and_two_pow_sub_one_eq_mod,
    Nat.mod_eq_of_lt b.toNat_lt]

-- The fragment test looks at the MF bit and the fragment offset, not at DF.
theorem fragOff_mask_iff (b0 b1 : UInt8) :
    u16OfLE b0 b1 &&& htons 0x3FFF = 0 ↔ b0.toNat % 64 = 0 ∧ b1 = 0 := by
  have h0 := b0.toNat_lt
  have h1 := b1.toNat_lt
  rw [← UInt16.toNat_inj, UInt16.toNat_and, u16OfLE, UInt16.toNat_ofNat',
    Nat.mod_eq_of_lt (by omega)]
  change (b0.toNat + 2 ^ 8 * b1.toNat) &&& (0x3F + 2 ^ 8 * 0xFF) = 0 ↔ _
  rw [land_two_bytes _ _ h0 (by decide), ← byte_land_63, byte_land_255, ← UInt8.toNat_inj]
  change _ ↔ _ ∧ b1.toNat = 0
  omega

theorem guard_eq_some_iff {p : Prop} [Decidable p] {u : Unit} :
    (guard p : Option Unit) = some u ↔ p := by
  by_cases hp : p
  · simp only [guard, hp, if_true, Option.pure_def]
  · simp only [guard, hp, if_false, iff_false]
    exact Option.some_ne_none u ∘ Eq.symm

-- The parse succeeds on the UDP packets that pass the two comparisons, and then returns the headers
-- that stand in the packet.
theorem parseUdp_eq_some_iff {ok : Helpers} {skb : SkBuff} {addrOk : IpHdr → Bool}
    {portOk : UdpHdr → Bool} {iph : IpHdr} {udp : UdpHdr} :
    parseUdp ok skb addrOk portOk = some (iph, udp) ↔
      (ok .loadEth = true ∧ ok .loadIp = true ∧ ok .loadUdp = true) ∧ skb.IsUdp ∧
        iph = skb.ipHdr ∧ udp = skb.udpHdr ∧ addrOk iph = true ∧ portOk udp = true := by
  have hether : u16At (window skb.data 0 14) 12 = htons ethPIp ↔
      byteAt skb.data 12 = 0x08 ∧ byteAt skb.data 13 = 0x00 := by
    rw [u16At_window _ _ _ _ (by decide), u16At, htons_etherType_iff]
  have hfrag : u16At skb.data 20 &&& htons 0x3FFF = 0 ↔
      (byteAt skb.data 20).toNat % 64 = 0 ∧ byteAt skb.data 21 = 0 := by
    rw [u16At, fragOff_mask_iff]
  have hhi := skb.ihl_lt
  have hsize : skb.udpOffset = 14 + 4 * skb.ihl := rfl
  simp only [parseUdp, Option.bind_eq_bind, Option.bind_eq_some_iff, guard_eq_some_iff,
    skbLoadBytes_eq_some_iff, Option.pure_def, Option.some.injEq, Prod.mk.injEq, exists_const]
  constructor
  · rintro ⟨eth, ⟨hok0, h0, rfl⟩, he, ip, ⟨hok1, h1, rfl⟩, hp, ha, hi, hf, u, ⟨hok2, h2, rfl⟩,
      hport, rfl, rfl⟩
    change skb.ipHdr.protocol = ipprotoUdp at hp
    change ¬ (skb.ipHdr.ihl < 5 ∨ skb.ipHdr.ihl > 15) at hi
    change skb.ipHdr.fragOff &&& htons 0x3FFF = 0 at hf
    change skb.ipHdr.udpOffset + 8 ≤ skb.len at h2
    simp only [SkBuff.ipHdr_protocol, SkBuff.ipHdr_ihl, SkBuff.ipHdr_fragOff,
      SkBuff.ipHdr_udpOffset] at hp hi hf h2
    have hudp : UdpHdr.ofBytes (window skb.data skb.ipHdr.udpOffset 8) = skb.udpHdr := by
      rw [SkBuff.ipHdr_udpOffset]
      rfl
    exact ⟨⟨hok0, hok1, hok2⟩, ⟨hether.mp he, hp, by omega, hfrag.mp hf, h2⟩, rfl, hudp, ha, hport⟩
  · rintro ⟨⟨hok0, hok1, hok2⟩, hu, rfl, rfl, ha, hport⟩
    have hlo := hu.ihl_ge
    have hin := hu.present
    have hudp : UdpHdr.ofBytes (window skb.data skb.ipHdr.udpOffset 8) = skb.udpHdr := by
      rw [SkBuff.ipHdr_udpOffset]
      rfl
    refine ⟨_, ⟨hok0, by omega, rfl⟩, hether.mpr hu.etherType, _, ⟨hok1, ?_, rfl⟩, ?_, ha, ?_,
      ?_, _, ⟨hok2, ?_, rfl⟩, ?_, rfl, hudp⟩
    · rw [ethHlen]
      omega
    · exact skb.ipHdr_protocol.trans hu.protocol
    · change ¬ (skb.ipHdr.ihl < 5 ∨ skb.ipHdr.ihl > 15)
      rw [SkBuff.ipHdr_ihl]
      omega
    · change skb.ipHdr.fragOff &&& htons 0x3FFF = 0
      rw [SkBuff.ipHdr_fragOff]
      exact hfrag.mpr hu.unfragmented
    · change skb.ipHdr.udpOffset + 8 ≤ skb.len
      rw [SkBuff.ipHdr_udpOffset]
      exact hin
    · change portOk (UdpHdr.ofBytes (window skb.data skb.ipHdr.udpOffset 8)) = true
      rw [hudp]
      exact hport

end DnsGateway.Bpf
