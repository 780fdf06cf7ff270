import Mathlib.Data.Nat.Digits.Defs
import TunnelOperator.Standard.AddrPort
import TunnelOperator.Standard.Hex

/-! Addresses, networks and UDP endpoints of the net package as the byte slices they are:
an IPv4 address may have 4 bytes or the 16 of its IPv4-mapped form, and a network's mask is a
slice of its own. -/
namespace TunnelOperator.Net
open Netip

abbrev IP := List UInt8

/-- The number a slice stands for, its first byte the highest. -/
def octets (ip : IP) : Nat := fromOctets (ip.map UInt8.toNat)

def v4InV6Prefix : IP := [0, 0, 0, 0, 0, 0, 0, 0, 0, 0, 0xff, 0xff]

def to4 (ip : IP) : Option IP :=
  if ip.length = 4 then some ip
  else if ip.length = 16 ∧ ip.take 12 = v4InV6Prefix then some (ip.drop 12)
  else none

/-- netip.AddrFromSlice -/
def addrFromSlice (ip : IP) : Option Addr :=
  if ip.length = 4 then some (.v4 (BitVec.ofNat 32 (octets ip)))
  else if ip.length = 16 then some (.v6 (BitVec.ofNat 128 (octets ip)) "")
  else none

/-- IP.String, which prints an IPv4-mapped address as IPv4. -/
def IP.string (ip : IP) : String :=
  if ip = [] then "<nil>"
  else match addrFromSlice ip with
    | some addr => addr.unmap.string
    | none => "?" ++ Hex.encodeToString ip

/-- IPMask.String -/
def maskString (m : List UInt8) : String := if m = [] then "<nil>" else Hex.encodeToString m

/-- net.IPNet -/
structure ByteNet where
  ip : IP
  mask : List UInt8
  deriving DecidableEq

/-- Counts the leading ones of a byte, and returns what is left of it. -/
def shiftOnes : Nat → UInt8 → Nat × UInt8
  | 0, v => (0, v)
  | fuel + 1, v =>
    if v &&& 0x80 ≠ 0 then
      let (n, rest) := shiftOnes fuel (v <<< 1)
      (n + 1, rest)
    else (0, v)

/-- The number of ones, if they all stand before the zeros. Eight shifts empty a byte. -/
def simpleMaskLength : List UInt8 → Option Nat
  | [] => some 0
  | v :: rest =>
    if v = 0xff then (simpleMaskLength rest).map (· + 8)
    else
      let (n, left) := shiftOnes 8 v
      if left ≠ 0 then none
      else if rest.all (· = 0) then some n
      else none

def networkNumberAndMask (n : ByteNet) : Option (IP × List UInt8) :=
  match to4 n.ip with
  | some ip =>
    if n.mask.length = 4 then some (ip, n.mask)
    else if n.mask.length = 16 then some (ip, n.mask.drop 12)
    else none
  | none => if n.ip.length = 16 ∧ n.mask.length = 16 then some (n.ip, n.mask) else none

def ByteNet.string (n : ByteNet) : String :=
  match networkNumberAndMask n with
  | none => "<nil>"
  | some (nn, m) =>
    match simpleMaskLength m with
    | none => IP.string nn ++ "/" ++ maskString m
    | some l => IP.string nn ++ "/" ++ Nat.repr l

/-- A UDPAddr as a device reports it: the kernel's ports have 16 bits. -/
structure UDPAddr where
  ip : IP
  port : Nat
  zone : String
  fits : port < 2 ^ 16
  deriving DecidableEq

/-- UDPAddr.AddrPort followed by Unmap, as an address and a port. Only an IPv6 address takes
the zone. -/
def UDPAddr.unmapped (a : UDPAddr) : Option AddrPort :=
  match addrFromSlice a.ip with
  | none => none
  | some (.v4 bits) => some ⟨.v4 bits, a.port⟩
  | some (.v6 bits _) => some ⟨(Addr.v6 bits a.zone).unmap, a.port⟩

def slice4 (bits : BitVec 32) : IP :=
  [.ofNat (Addr.octet bits 3), .ofNat (Addr.octet bits 2), .ofNat (Addr.octet bits 1),
    .ofNat (Addr.octet bits 0)]

def slice16 (bits : BitVec 128) : IP :=
  (List.range 16).map fun i => .ofNat (bits.toNat / 256 ^ (15 - i))

/-- net.UDPAddrFromAddrPort. A port of netip has 16 bits. -/
def udpAddrFromAddrPort (a : AddrPort) : UDPAddr :=
  match a.addr with
  | .v4 bits => ⟨slice4 bits, a.port % 2 ^ 16, "", Nat.mod_lt _ (by decide)⟩
  | .v6 bits zone => ⟨slice16 bits, a.port % 2 ^ 16, zone, Nat.mod_lt _ (by decide)⟩

section Octets

theorem octets_four (a b c d : UInt8) :
    octets [a, b, c, d] = ((a.toNat * 256 + b.toNat) * 256 + c.toNat) * 256 + d.toNat :=
  fromOctets_four ..

theorem octets_eq (ip : IP) : octets ip = Nat.ofDigits 256 (ip.map UInt8.toNat).reverse := by
  rw [Nat.ofDigits_eq_foldr, List.foldr_reverse, octets, fromOctets]
  congr 1
  funext value field
  simp [Nat.add_comm, Nat.mul_comm]

theorem toNat_lt_of_mem (ip : IP) : ∀ n ∈ (ip.map UInt8.toNat).reverse, n < 256 := by
  intro n member
  obtain ⟨byte, -, rfl⟩ := List.mem_map.mp (List.mem_reverse.mp member)
  exact byte.toNat_lt

theorem octets_append (first second : IP) :
    octets (first ++ second) = octets second + 256 ^ second.length * octets first := by
  simp only [octets_eq, List.map_append, List.reverse_append, Nat.ofDigits_append,
    List.length_reverse, List.length_map]

theorem octets_lt (ip : IP) : octets ip < 256 ^ ip.length := by
  have bound := Nat.ofDigits_lt_base_pow_length (b := 256) (by decide) (toNat_lt_of_mem ip)
  simpa only [octets_eq, List.length_reverse, List.length_map] using bound

/-- Slices of one length stand for different numbers. -/
theorem octets_injective {first second : IP} (length : first.length = second.length)
    (same : octets first = octets second) : first = second := by
  rw [octets_eq, octets_eq] at same
  have digits := Nat.ofDigits_inj_of_len_eq (by decide) (by simpa using length)
    (toNat_lt_of_mem first) (toNat_lt_of_mem second) same
  exact List.map_injective_iff.mpr (fun _ _ => UInt8.toNat_inj.mp) (List.reverse_injective digits)

theorem slice4_length (bits : BitVec 32) : (slice4 bits).length = 4 := rfl

theorem octets_slice4 (bits : BitVec 32) : octets (slice4 bits) = bits.toNat := by
  have octet (place : Nat) : (UInt8.ofNat (Addr.octet bits place)).toNat = Addr.octet bits place :=
    UInt8.toNat_ofNat_of_lt (octet_lt bits place)
  rw [slice4, octets_four, octet, octet, octet, octet, ← fromOctets_four, fromOctets_octets]

/-- The two slices of an IPv4 address. -/
def Spells (ip : IP) (bits : BitVec 32) : Prop :=
  ip = slice4 bits ∨ ip = v4InV6Prefix ++ slice4 bits

theorem ofNat_octets_iff {ip : IP} (four : ip.length = 4) :
    BitVec.ofNat 32 (octets ip) = bits ↔ ip = slice4 bits := by
  have small := octets_lt ip
  rw [four] at small
  constructor
  · intro same
    apply octets_injective (four.trans (slice4_length bits).symm)
    rw [octets_slice4, ← same, BitVec.toNat_ofNat]
    exact (Nat.mod_eq_of_lt small).symm
  · rintro rfl
    rw [octets_slice4, BitVec.ofNat_toNat, BitVec.setWidth_eq]

/-- Of the 16-byte slices, those Unmap takes for IPv4. -/
theorem unmap_slice16 {ip : IP} (sixteen : ip.length = 16) (zone : String) :
    (Addr.v6 (BitVec.ofNat 128 (octets ip)) zone).unmap = .v4 bits ↔ ip = v4InV6Prefix ++
      slice4 bits := by
  have parts : ip = ip.take 12 ++ ip.drop 12 := (List.take_append_drop 12 ip).symm
  have high : (ip.take 12).length = 12 := by simp [sixteen]
  have low : (ip.drop 12).length = 4 := by simp [sixteen]
  have small := octets_lt ip
  have lowSmall := octets_lt (ip.drop 12)
  have value := octets_append (ip.take 12) (ip.drop 12)
  rw [← parts, low] at value
  rw [sixteen] at small
  rw [low] at lowSmall
  have whole : (BitVec.ofNat 128 (octets ip)).toNat = octets ip := by
    rw [BitVec.toNat_ofNat]
    exact Nat.mod_eq_of_lt small
  have mapped : octets v4InV6Prefix = 0xffff := by decide
  have quotient : octets ip / 2 ^ 32 = octets (ip.take 12) := by omega
  have remainder : BitVec.ofNat 32 (octets ip) = BitVec.ofNat 32 (octets (ip.drop 12)) := by
    apply BitVec.eq_of_toNat_eq
    rw [BitVec.toNat_ofNat, BitVec.toNat_ofNat]
    omega
  simp only [Addr.unmap, whole, quotient, remainder]
  constructor
  · intro same
    split at same
    · rename_i isMapped
      have first : ip.take 12 = v4InV6Prefix := octets_injective high (isMapped.trans mapped.symm)
      have last := (ofNat_octets_iff low).mp (Addr.v4.inj same)
      rw [parts, first, last]
    · contradiction
  · intro shape
    have first : ip.take 12 = v4InV6Prefix := by rw [shape]; rfl
    have last : ip.drop 12 = slice4 bits := by rw [shape]; rfl
    rw [first, if_pos mapped, last, (ofNat_octets_iff (slice4_length bits)).mpr rfl]

theorem unmapped_v4 {a : UDPAddr} : a.unmapped = some ⟨.v4 bits, port⟩ ↔ Spells a.ip bits ∧
    a.port = port := by
  unfold UDPAddr.unmapped addrFromSlice Spells
  by_cases four : a.ip.length = 4
  · have short : a.ip ≠ v4InV6Prefix ++ slice4 bits :=
      fun same => by simp [same, v4InV6Prefix, slice4] at four
    simp only [if_pos four, Option.some.injEq, AddrPort.mk.injEq, Addr.v4.injEq,
      ofNat_octets_iff four, short, or_false]
  · have long : a.ip ≠ slice4 bits := fun same => four (by rw [same, slice4_length])
    by_cases sixteen : a.ip.length = 16
    · simp only [if_neg four, if_pos sixteen, Option.some.injEq, AddrPort.mk.injEq,
        unmap_slice16 sixteen, long, false_or]
    · have other : a.ip ≠ v4InV6Prefix ++ slice4 bits := fun same => sixteen (by rw [same]; rfl)
      simp only [if_neg four, if_neg sixteen, reduceCtorEq, long, other, or_self, false_and]

end Octets

end TunnelOperator.Net
