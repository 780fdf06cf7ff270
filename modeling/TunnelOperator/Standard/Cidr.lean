import TunnelOperator.Standard.PrefixProofs

/-! The net package's CIDR values. An IPNet is a prefix without zone; unlike netip,
ParseCIDR cuts at the first slash, admits leading zeros in the length and masks. -/
namespace TunnelOperator.Net
open Netip Strconv

abbrev IPNet := Prefix

/-- The bytes of a network mask: ones from the left. -/
def cidrMask (ones size : Nat) : List Nat :=
  (List.range (size / 8)).map fun i => 256 - 2 ^ (8 - min 8 (ones - 8 * i))

def mask (n : IPNet) : List Nat := cidrMask n.bits n.addr.bitLen

/-- IP.Equal: an IPv4 address and its IPv4-mapped form are the same address. -/
def ipEqual (a b : Addr) : Bool := a.unmap = b.unmap

def splitFirst (separator : Char) (cs : List Char) : Option (List Char × List Char) :=
  match cs.span (· ≠ separator) with
  | (_, []) => none
  | (before, _ :: after) => some (before, after)

def parseCIDR (s : String) : Except String IPNet :=
  match splitFirst '/' s.toList with
  | none => .error ("invalid CIDR address: " ++ s)
  | some (addrText, maskText) =>
    match parseAddr (String.ofList addrText), decimal maskText with
    | .ok ip, some bits =>
      if fits : bits ≤ ip.bitLen then
        if ip.zone = "" then .ok (Prefix.masked ⟨ip, bits, fits⟩)
        else .error ("invalid CIDR address: " ++ s)
      else .error ("invalid CIDR address: " ++ s)
    | _, _ => .error ("invalid CIDR address: " ++ s)

theorem splitFirst_append {before after : List Char} {separator : Char}
    (absent : separator ∉ before) :
    splitFirst separator (before ++ separator :: after) = some (before, after) := by
  have all : ∀ c ∈ before, decide (c ≠ separator) = true := by
    intro c member
    simp only [decide_eq_true_eq]
    rintro rfl
    exact absent member
  have span : (before ++ separator :: after).span (· ≠ separator) =
      (before, separator :: after) := by
    rw [List.span_eq_takeWhile_dropWhile, List.takeWhile_append_of_pos all,
      List.dropWhile_append_of_pos all]
    simp
  simp only [splitFirst, span]

theorem slash_not_in_text4 (bits : BitVec 32) : '/' ∉ Addr.text4 bits := by
  intro member
  rcases text4_chars bits '/' member with h | h <;> contradiction

theorem maskBits_full (bits : BitVec 32) : Prefix.maskBits bits 32 = bits := by
  simp [Prefix.maskBits]

/-- The host network of an IPv4 address, as the agent builds it. -/
theorem parseCIDR_host (bits : BitVec 32) :
    parseCIDR ((Addr.v4 bits).string ++ "/32") = .ok (Prefix.single (.v4 bits)) := by
  have text : ((Addr.v4 bits).string ++ "/32").toList = Addr.text4 bits ++ '/' :: ['3', '2'] := by
    simp [Addr.string, Addr.text]
  have spelled : String.ofList (Addr.text4 bits) = (Addr.v4 bits).string := rfl
  have length : decimal ['3', '2'] = some 32 := by decide
  simp only [parseCIDR, text, splitFirst_append (slash_not_in_text4 bits), spelled,
    parseAddr_string, length]
  rw [dif_pos (by simp [Addr.bitLen])]
  simp only [Addr.zone, if_true]
  congr 1
  rw [Prefix.ext_iff']
  exact ⟨by simp [Prefix.masked, Prefix.maskAddr, Prefix.single, maskBits_full], rfl⟩

/-- A mask determines the family and the length. -/
theorem mask_host_iff (n : IPNet) (bits : BitVec 32) :
    mask n = mask (Prefix.single (.v4 bits)) ↔ n.addr.is4 = true ∧ n.bits = 32 := by
  obtain ⟨addr, ones, fits⟩ := n
  cases addr with
  | v6 value zone =>
    simp only [mask, Prefix.single, Addr.bitLen, Addr.is4, Bool.false_eq_true, false_and, iff_false]
    intro same
    have lengths := congrArg List.length same
    simp [cidrMask] at lengths
  | v4 value =>
    simp only [mask, Prefix.single, Addr.bitLen, Addr.is4, true_and] at fits ⊢
    constructor
    · intro same
      by_contra ne
      have small : ones ∈ List.range 32 := List.mem_range.mpr (by omega)
      have all : ∀ ones ∈ List.range 32, cidrMask ones 32 ≠ cidrMask 32 32 := by decide
      exact all ones small same
    · rintro rfl
      rfl

end TunnelOperator.Net
