import TunnelOperator.Ipam

/-! What the allocator hands out over an accepted range: exactly the first address
of the range that is not used, and an error only when every one is. -/
namespace TunnelOperator.Ipam
open Netip Net

section Text
variable {cidr : String} {range : PeerCIDR}

/-- What netip accepts as an IPv4 prefix, net reads as its masked form. -/
theorem parseCIDR_of_parsePrefix {p : Prefix} {base : BitVec 32} (family : p.addr = .v4 base)
    (parsed : parsePrefix cidr = .ok p) : parseCIDR cidr = .ok p.masked := by
  unfold parsePrefix at parsed
  cases split : splitLast '/' cidr.toList with
  | none => simp [split] at parsed
  | some parts =>
    obtain ⟨addrText, bitsText⟩ := parts
    simp only [split] at parsed
    cases addr : parseAddr (String.ofList addrText) with
    | error message => simp [addr] at parsed
    | ok ip =>
      simp only [addr] at parsed
      split at parsed
      · contradiction
      rename_i zoneless
      split at parsed
      · contradiction
      cases length : Strconv.decimal bitsText with
      | none => simp [length] at parsed
      | some bits =>
        simp only [length] at parsed
        split at parsed
        · rename_i fits
          simp only [Except.ok.injEq] at parsed
          subst parsed
          obtain rfl : ip = .v4 base := family
          have text : addrText = Addr.text4 base := by
            have spelled := parseAddr_v4_iff.mp addr
            simpa [Addr.string, Addr.text] using congrArg String.toList spelled
          have cut : splitFirst '/' cidr.toList = some (addrText, bitsText) := by
            rw [splitLast_some split]
            exact splitFirst_append (text ▸ slash_not_in_text4 base)
          simp only [parseCIDR, cut, addr, length, dif_pos fits]
          rw [if_pos (by simpa using zoneless)]
        · split at parsed <;> contradiction

theorem reads_v4 (reads : Reads cidr range) : parseCIDR cidr = .ok range.net := by
  have family : range.net.addr = .v4 range.base := rfl
  rw [parseCIDR_of_parsePrefix family reads, Except.ok.injEq, Prefix.ext_iff']
  exact ⟨by rw [Prefix.masked_v4 family]; exact congrArg Addr.v4 range.canonical, rfl⟩

theorem PeerCIDR.net_masked (range : PeerCIDR) : range.net.masked = range.net := by
  rw [Prefix.ext_iff']
  exact ⟨congrArg Addr.v4 range.canonical, rfl⟩

/-- The network address is a multiple of the size of the range, and the range ends
within the family. -/
theorem PeerCIDR.base_multiple (range : PeerCIDR) : ∃ q,
    range.base.toNat = q * 2 ^ (32 - range.bits) ∧
      q * 2 ^ (32 - range.bits) + 2 ^ (32 - range.bits) ≤ 2 ^ 32 := by
  have canonical := congrArg BitVec.toNat range.canonical
  rw [Prefix.maskBits_toNat] at canonical
  have roomy := range.roomy
  have whole : 2 ^ (32 - range.bits) * 2 ^ range.bits = 2 ^ 32 := by
    rw [← Nat.pow_add]
    congr 1
    omega
  refine ⟨_, canonical.symm, ?_⟩
  have below : range.base.toNat / 2 ^ (32 - range.bits) < 2 ^ range.bits :=
    Nat.div_lt_of_lt_mul (whole ▸ range.base.isLt)
  calc _ = (range.base.toNat / 2 ^ (32 - range.bits) + 1) * 2 ^ (32 - range.bits) := by
        rw [Nat.add_mul, Nat.one_mul]
    _ ≤ 2 ^ range.bits * 2 ^ (32 - range.bits) := Nat.mul_le_mul_right _ below
    _ = 2 ^ 32 := by rw [Nat.mul_comm, whole]

/-- Two free low bits, so the network address has a successor. -/
theorem PeerCIDR.base_add_one_ne_zero (range : PeerCIDR) : range.base + 1 ≠ 0 := by
  intro wraps
  obtain ⟨q, base, -⟩ := range.base_multiple
  have last : range.base.toNat = 2 ^ 32 - 1 := by bv_omega
  have even : 2 ∣ 2 ^ (32 - range.bits) :=
    dvd_pow_self 2 (by have := range.roomy; omega)
  have : 2 ∣ range.base.toNat := base ▸ Dvd.dvd.mul_left even _
  omega

theorem reserved (reads : Reads cidr range) : deriveReservedIPs cidr =
    [(Addr.v4 range.base).string, (Addr.v4 (range.base + 1)).string] := by
  have nonempty : cidr ≠ "" := by
    rintro rfl
    have bad : parsePrefix "" = .error (parsePrefixError "" "no '/'") := by decide
    simp [Reads, bad] at reads
  unfold deriveReservedIPs
  rw [if_neg nonempty, reads]
  simp only [range.net_masked]
  simp only [PeerCIDR.net, Addr.next]
  rw [if_neg range.base_add_one_ne_zero]
  rfl

end Text

section Allocation
variable {cidr : String} {range : PeerCIDR} {usedIPs : List String}

/-- The generator meets every address of the range. -/
theorem mem_addresses (range : PeerCIDR) (a : Addr) :
    a ∈ addresses range.net ↔ range.net.contains a = true := by
  rw [Prefix.contains_v4 (show range.net.addr = .v4 range.base from rfl)]
  simp only [addresses, PeerCIDR.net, List.mem_map, List.mem_range'_1, Prefix.sameBits_iff]
  obtain ⟨q, base, room⟩ := range.base_multiple
  have size := Nat.two_pow_pos (32 - range.bits)
  generalize 2 ^ (32 - range.bits) = block at *
  have quotient : range.base.toNat / block = q := by
    rw [base, Nat.mul_comm, Nat.mul_div_cancel_left q size]
  rw [quotient]
  constructor
  · rintro ⟨i, bounds, rfl⟩
    refine ⟨_, rfl, ?_⟩
    have plain : (range.base + BitVec.ofNat 32 i).toNat = q * block + i := by
      simp only [BitVec.toNat_add, BitVec.toNat_ofNat, base]
      rw [Nat.mod_eq_of_lt (a := i) (by omega), Nat.mod_eq_of_lt (by omega)]
    rw [plain, Nat.mul_comm, Nat.mul_add_div size, Nat.div_eq_of_lt (by omega)]
    omega
  · rintro ⟨value, rfl, same⟩
    have split := Nat.div_add_mod value.toNat block
    have small := Nat.mod_lt value.toNat size
    rw [same, Nat.mul_comm] at split
    refine ⟨value.toNat % block, by omega, congrArg Addr.v4 (BitVec.eq_of_toNat_eq ?_)⟩
    simp only [BitVec.toNat_add, BitVec.toNat_ofNat, base]
    rw [Nat.mod_eq_of_lt (a := value.toNat % block) (by omega), Nat.mod_eq_of_lt (by omega)]
    exact split

theorem ipString_v4 (value : BitVec 32) : ipString (.v4 value) = (Addr.v4 value).string := rfl

theorem mem_getUsedIPs {peers : List WireguardPeer} {ip : String} :
    ip ∈ getUsedIPs cidr peers ↔ ip ∈ deriveReservedIPs cidr ∨
      (ip ≠ "" ∧ ∃ peer ∈ peers, peer.status.address = ip) := by
  simp only [getUsedIPs, List.mem_append, List.mem_filter, List.mem_map, decide_eq_true_eq]
  exact or_congr_right And.comm

theorem allocateIP_eq (reads : Reads cidr range) : allocateIP cidr usedIPs =
    match ((addresses range.net).map ipString).find? fun ip => !isUsed ip usedIPs with
    | some ip => .ok ip
    | none => .error ("no available IP found in " ++ cidr) := by
  cases found : ((addresses range.net).map ipString).find? fun ip => !isUsed ip usedIPs <;>
    simp only [allocateIP, allocateFrom, reads_v4 reads, found]

/-- An address that is handed out belongs to the range, is none of the used ones and,
the reserved two being used, may be held by a peer. -/
theorem allocateIP_ok (reads : Reads cidr range)
    (reserving : ∀ ip ∈ deriveReservedIPs cidr, ip ∈ usedIPs)
    (found : allocateIP cidr usedIPs = .ok ip) : range.Holds ip ∧ ip ∉ usedIPs := by
  rw [allocateIP_eq reads] at found
  split at found
  · rename_i first first_found
    simp only [Except.ok.injEq] at found
    subst found
    have unused : first ∉ usedIPs := by simpa [isUsed] using List.find?_some first_found
    obtain ⟨a, inside, rfl⟩ := List.mem_map.mp (List.mem_of_find?_eq_some first_found)
    rw [mem_addresses] at inside
    obtain ⟨value, rfl, same⟩ :=
      (Prefix.contains_v4 (show range.net.addr = .v4 range.base from rfl)).mp inside
    rw [reserved reads] at reserving
    rw [ipString_v4] at unused
    refine ⟨⟨value, rfl, inside, ?_, ?_⟩, unused⟩
    · rintro rfl
      exact unused (reserving _ (by simp))
    · rintro rfl
      exact unused (reserving _ (by simp))
  · contradiction

/-- An error means a full pool. -/
theorem allocateIP_error (reads : Reads cidr range)
    (failed : allocateIP cidr usedIPs = .error message) (held : range.Holds ip) : ip ∈ usedIPs := by
  obtain ⟨value, rfl, inside, -⟩ := held
  rw [allocateIP_eq reads] at failed
  split at failed
  · contradiction
  · rename_i none_found
    have all := List.find?_eq_none.mp none_found (ipString (.v4 value))
      (List.mem_map_of_mem ((mem_addresses range _).mpr inside))
    simpa [isUsed, ipString_v4] using all

theorem PeerCIDR.Holds.ne_empty (held : range.Holds ip) : ip ≠ "" := by
  obtain ⟨value, rfl, -⟩ := held
  exact string_v4_ne_empty value

/-- A text denotes one range. -/
theorem Reads.unique {first second : PeerCIDR} (one : Reads cidr first) (two : Reads cidr second) :
    first = second := by
  have same : first.net = second.net := Except.ok.inj (one.symm.trans two)
  have bases := congrArg Prefix.addr same
  have lengths := congrArg Prefix.bits same
  obtain ⟨base, bits, roomy, canonical⟩ := first
  obtain ⟨base', bits', roomy', canonical'⟩ := second
  obtain rfl : base = base' := Addr.v4.inj bases
  obtain rfl : bits = bits' := lengths
  rfl

/-- The two reserved addresses are not for a peer to hold. -/
theorem PeerCIDR.Holds.not_reserved (reads : Reads cidr range) (held : range.Holds ip) :
    ip ∉ deriveReservedIPs cidr := by
  rw [reserved reads]
  obtain ⟨value, rfl, -, network, firstHost⟩ := held
  intro member
  simp only [List.mem_cons, List.not_mem_nil, or_false] at member
  rcases member with same | same
  · exact network (string_v4_injective same)
  · exact firstHost (string_v4_injective same)

end Allocation
end TunnelOperator.Ipam
