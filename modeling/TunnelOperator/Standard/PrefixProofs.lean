import TunnelOperator.Standard.Prefix
import TunnelOperator.Standard.AddrProofs
import Mathlib.Data.List.TakeDrop

/-! Containment, overlap and masking of IPv4 prefixes read as integer division, and
the round trip of their text. -/
namespace TunnelOperator.Netip
open Addr

namespace Prefix

theorem sameBits_iff {width : Nat} (first second : BitVec width) (length : Nat) :
    sameBits first second length = true ↔
      first.toNat / 2 ^ (width - length) = second.toNat / 2 ^ (width - length) := by
  simp only [sameBits, decide_eq_true_eq, BitVec.ushiftRight_xor_distrib, BitVec.ofNat_eq_ofNat,
    BitVec.xor_eq_zero_iff]
  rw [← BitVec.toNat_inj, BitVec.toNat_ushiftRight, BitVec.toNat_ushiftRight,
    Nat.shiftRight_eq_div_pow, Nat.shiftRight_eq_div_pow]

theorem maskBits_toNat {width : Nat} (value : BitVec width) (length : Nat) :
    (maskBits value length).toNat =
      value.toNat / 2 ^ (width - length) * 2 ^ (width - length) := by
  have bound : value.toNat / 2 ^ (width - length) * 2 ^ (width - length) < 2 ^ width :=
    Nat.lt_of_le_of_lt (Nat.div_mul_le_self _ _) value.isLt
  simp only [maskBits, BitVec.toNat_shiftLeft, BitVec.toNat_ushiftRight,
    Nat.shiftRight_eq_div_pow, Nat.shiftLeft_eq]
  exact Nat.mod_eq_of_lt bound

theorem maskBits_eq_iff {width : Nat} (first second : BitVec width) (length : Nat) :
    maskBits first length = maskBits second length ↔ sameBits first second length = true := by
  rw [sameBits_iff, ← BitVec.toNat_inj, maskBits_toNat, maskBits_toNat]
  constructor
  · exact Nat.eq_of_mul_eq_mul_right (Nat.two_pow_pos _)
  · intro same
    rw [same]

/-- Agreement on a longer prefix is agreement on every shorter one. -/
theorem sameBits_mono {width : Nat} {first second : BitVec width} {short long : Nat}
    (shorter : short ≤ long) (same : sameBits first second long = true) :
    sameBits first second short = true := by
  rw [sameBits_iff] at same ⊢
  have split : width - short = width - long + (width - short - (width - long)) := by omega
  rw [split, Nat.pow_add, ← Nat.div_div_eq_div_mul, ← Nat.div_div_eq_div_mul, same]

theorem sameBits_trans {width : Nat} {a b c : BitVec width} {length : Nat}
    (first : sameBits a b length = true) (second : sameBits b c length = true) :
    sameBits a c length = true := by
  rw [sameBits_iff] at *
  exact first.trans second

theorem sameBits_symm {width : Nat} {a b : BitVec width} {length : Nat}
    (same : sameBits a b length = true) : sameBits b a length = true := by
  rw [sameBits_iff] at *
  exact same.symm

/-- An IPv4 prefix contains IPv4 addresses only. -/
theorem contains_v4 {p : Prefix} {base : BitVec 32} {a : Addr} (family : p.addr = .v4 base) :
    p.contains a = true ↔ ∃ value, a = .v4 value ∧ sameBits value base p.bits = true := by
  cases a with
  | v4 value => simp [contains, family]
  | v6 value zone => simp [contains, family]

theorem masked_v4 {p : Prefix} {base : BitVec 32} (family : p.addr = .v4 base) :
    p.masked.addr = .v4 (maskBits base p.bits) := by
  simp [masked, family, maskAddr]

/-- Two IPv4 prefixes that share an address overlap. -/
theorem overlaps_of_contains {p o : Prefix} {pbase obase : BitVec 32} {a : Addr}
    (pfamily : p.addr = .v4 pbase) (ofamily : o.addr = .v4 obase)
    (inP : p.contains a = true) (inO : o.contains a = true) : p.overlaps o = true := by
  obtain ⟨value, rfl, first⟩ := (contains_v4 pfamily).mp inP
  obtain ⟨_, same, second⟩ := (contains_v4 ofamily).mp inO
  cases same
  have agree : sameBits pbase obase (min p.bits o.bits) = true :=
    sameBits_trans (sameBits_symm (sameBits_mono (Nat.min_le_left _ _) first))
      (sameBits_mono (Nat.min_le_right _ _) second)
  unfold overlaps
  split
  · rfl
  · rw [if_neg (by simp [pfamily, ofamily, is4])]
    split
    · rfl
    · simpa [pfamily, ofamily, maskAddr, maskBits_eq_iff] using agree

/-- The prefix of length zero overlaps every IPv4 prefix. -/
theorem overlaps_zero {p o : Prefix} {pbase obase : BitVec 32}
    (pfamily : p.addr = .v4 pbase) (ofamily : o.addr = .v4 obase) (zero : o.bits = 0) :
    p.overlaps o = true := by
  unfold overlaps
  split
  · rfl
  · rw [if_neg (by simp [pfamily, ofamily, is4]), if_pos (by simp [zero])]

theorem ext_iff' {p o : Prefix} : p = o ↔ p.addr = o.addr ∧ p.bits = o.bits := by
  constructor
  · rintro rfl
    exact ⟨rfl, rfl⟩
  · rintro ⟨addrs, lengths⟩
    cases p
    cases o
    cases addrs
    cases lengths
    rfl

theorem family_of_contains {p : Prefix} {value : BitVec 32}
    (covers : p.contains (.v4 value) = true) :
    ∃ base, p.addr = .v4 base := by
  cases address : p.addr with
  | v4 base => exact ⟨base, rfl⟩
  | v6 _ _ => simp [contains, address] at covers

/-- One canonical prefix of each length covers an address. -/
theorem eq_of_contains {p o : Prefix} {value : BitVec 32} (lengths : p.bits = o.bits)
    (maskedP : p.masked = p) (maskedO : o.masked = o) (inP : p.contains (.v4 value) = true)
    (inO : o.contains (.v4 value) = true) : p = o := by
  obtain ⟨pbase, pfamily⟩ := family_of_contains inP
  obtain ⟨obase, ofamily⟩ := family_of_contains inO
  obtain ⟨_, same, first⟩ := (contains_v4 pfamily).mp inP
  cases same
  obtain ⟨_, same, second⟩ := (contains_v4 ofamily).mp inO
  cases same
  rw [← maskedP, ← maskedO, ext_iff', masked_v4 pfamily, masked_v4 ofamily]
  refine ⟨?_, lengths⟩
  rw [lengths] at first ⊢
  exact congrArg Addr.v4 ((maskBits_eq_iff _ _ _).mpr (sameBits_trans (sameBits_symm first) second))

end Prefix

theorem splitLast_append {before after : List Char} {separator : Char}
    (absent : separator ∉ after) :
    splitLast separator (before ++ separator :: after) = some (before, after) := by
  have all : ∀ c ∈ after.reverse, decide (c ≠ separator) = true := by
    intro c member
    simp only [decide_eq_true_eq]
    rintro rfl
    exact absent (List.mem_reverse.mp member)
  have span : (before ++ separator :: after).reverse.span (· ≠ separator) =
      (after.reverse, separator :: before.reverse) := by
    rw [List.reverse_append, List.reverse_cons, List.append_assoc, List.singleton_append,
      List.span_eq_takeWhile_dropWhile, List.takeWhile_append_of_pos all,
      List.dropWhile_append_of_pos all]
    simp
  simp only [splitLast, span, List.reverse_reverse]

theorem splitLast_some {cs before after : List Char} {separator : Char}
    (split : splitLast separator cs = some (before, after)) :
    cs = before ++ separator :: after := by
  have parts := List.takeWhile_append_dropWhile (p := fun c => decide (c ≠ separator))
    (l := cs.reverse)
  simp only [splitLast, List.span_eq_takeWhile_dropWhile] at split
  cases rest : cs.reverse.dropWhile (fun c => decide (c ≠ separator)) with
  | nil => simp only [rest, reduceCtorEq] at split
  | cons c tail =>
    have stop : c = separator := by
      have head := List.head_dropWhile_not (fun c => decide (c ≠ separator)) (l := cs.reverse)
        (by simp only [rest, ne_eq, reduceCtorEq, not_false_eq_true])
      simpa only [rest, List.head_cons, decide_eq_false_iff_not, not_not] using head
    simp only [rest, Option.some.injEq, Prod.mk.injEq] at split
    obtain ⟨rfl, rfl⟩ := split
    rw [rest, stop] at parts
    have whole := congrArg List.reverse parts
    simpa only [List.reverse_append, List.reverse_cons, List.append_assoc, List.cons_append,
      List.nil_append, List.reverse_reverse] using whole.symm

theorem repr_length {bits : Nat} (small : bits ≤ 32) :
    Strconv.decimal (Nat.repr bits).toList = some bits ∧
      ¬ (1 < (Nat.repr bits).toList.length ∧ (Nat.repr bits).toList.head? = some '0') ∧
      '/' ∉ (Nat.repr bits).toList := by
  have all : ∀ bits ∈ List.range 33, Strconv.decimal (Nat.repr bits).toList = some bits ∧
      ¬ (1 < (Nat.repr bits).toList.length ∧ (Nat.repr bits).toList.head? = some '0') ∧
      '/' ∉ (Nat.repr bits).toList := by decide
  exact all bits (List.mem_range.mpr (by omega))

/-- Every IPv4 prefix parses back from the text it prints. -/
theorem parsePrefix_string {p : Prefix} {base : BitVec 32} (family : p.addr = .v4 base) :
    parsePrefix p.string = .ok p := by
  have small : p.bits ≤ 32 := by simpa [family, bitLen] using p.fits
  obtain ⟨value, lead, plain⟩ := repr_length small
  have text : p.string.toList = (Addr.v4 base).string.toList ++
      '/' :: (Nat.repr p.bits).toList := by
    simp [Prefix.string, family]
  unfold parsePrefix
  simp only [text, splitLast_append plain, String.ofList_toList, parseAddr_string, value]
  rw [if_neg (by simp [zone]), if_neg lead, dif_pos (by simpa [bitLen] using small)]
  congr 1
  rw [Prefix.ext_iff']
  exact ⟨family.symm, rfl⟩

end TunnelOperator.Netip
