import TunnelOperator.Standard.NetBytes

/-! Which byte slices the net package prints as the network 0.0.0.0/0. -/
namespace TunnelOperator.Net
open Netip

section Text

theorem colon_mem_hexFields (first second : Nat) (rest : List Nat) :
    ':' ∈ Addr.hexFields (first :: second :: rest) := by
  simp [Addr.hexFields]

theorem colon_mem_v6 (bits : BitVec 128) (zone : String) : ':' ∈ (Addr.v6 bits zone).text := by
  refine List.mem_append_left _ ?_
  split
  · exact List.mem_append_left _ (by decide)
  · unfold Addr.text6
    dsimp only
    split
    · exact colon_mem_hexFields ..
    · exact List.mem_append_right _ List.mem_cons_self

theorem shiftOnes_zero (shifted : shiftOnes (fuel + 1) v = (0, left)) : left = v := by
  rw [shiftOnes] at shifted
  split at shifted
  · simp at shifted
  · exact (Prod.ext_iff.mp shifted).2.symm

theorem simpleMaskLength_zero {m : List UInt8} (none_set : simpleMaskLength m = some 0) :
    ∀ v ∈ m, v = 0 := by
  cases m with
  | nil => simp
  | cons v rest =>
    rw [simpleMaskLength] at none_set
    split at none_set
    · obtain ⟨_, -, eight⟩ := Option.map_eq_some_iff.mp none_set
      contradiction
    · cases shifted : shiftOnes 8 v with
      | mk n left =>
        simp only [shifted, ne_eq, ite_not, List.all_eq_true, decide_eq_true_eq] at none_set
        split at none_set
        · rename_i empty
          split at none_set
          · rename_i zeros
            obtain rfl := Option.some.inj none_set
            exact List.forall_mem_cons.mpr ⟨(shiftOnes_zero shifted).symm.trans empty, zeros⟩
          · contradiction
        · contradiction

theorem string_slice4 {ip : IP} (four : ip.length = 4) :
    IP.string ip = (Addr.v4 (BitVec.ofNat 32 (octets ip))).string := by
  have nonempty : ip ≠ [] := fun empty => by simp [empty] at four
  rw [IP.string, if_neg nonempty, addrFromSlice, if_pos four]
  rfl

/-- The text of an IPv4 address, a slash and more is cut at the slash. -/
theorem split_string_v4 (bits : BitVec 32) (tail : String) :
    splitFirst '/' ((Addr.v4 bits).string ++ "/" ++ tail).toList =
      some (Addr.text4 bits, tail.toList) := by
  have text : ((Addr.v4 bits).string ++ "/" ++ tail).toList = Addr.text4 bits ++
      '/' :: tail.toList := by
    simp [Addr.string, Addr.text]
  rw [text]
  exact splitFirst_append (slash_not_in_text4 bits)

theorem hex_length (bytes : List UInt8) : (Hex.encode bytes).length = 2 * bytes.length := by
  have two : ∀ n < 256, (Strconv.hexDigits 2 n).length = 2 := by decide +kernel
  induction bytes with
  | nil => rfl
  | cons byte rest ih =>
    rw [Hex.encode, List.flatMap_cons, List.length_append, two _ byte.toNat_lt, List.length_cons]
    rw [Hex.encode] at ih
    omega

/-- An IPv4 network printed as every address. -/
theorem everyIPv4_text {nn : IP} {m : List UInt8} {tail : String} (four : nn.length = 4)
    (size : m.length = 4) (length : (simpleMaskLength m).elim (maskString m) Nat.repr = tail)
    (same : IP.string nn ++ "/" ++ tail = "0.0.0.0/0") : nn = [0, 0, 0, 0] ∧ m = [0, 0, 0, 0] := by
  rw [string_slice4 four] at same
  have cut := split_string_v4 (BitVec.ofNat 32 (octets nn)) tail
  have known : splitFirst '/' "0.0.0.0/0".toList = some (Addr.text4 0, ['0']) := by decide
  rw [same, known, Option.some.injEq, Prod.mk.injEq] at cut
  obtain ⟨address, zero⟩ := cut
  constructor
  · have bits : (0 : BitVec 32) = BitVec.ofNat 32 (octets nn) :=
      string_v4_injective (congrArg String.ofList address)
    exact (ofNat_octets_iff four).mp bits.symm
  · cases ones : simpleMaskLength m with
    | none =>
      rw [ones, Option.elim_none, maskString,
        if_neg (fun empty => by simp [empty] at size)] at length
      have eight := hex_length m
      rw [← length, Hex.encodeToString, String.toList_ofList] at zero
      rw [← zero, size] at eight
      contradiction
    | some l =>
      rw [ones, Option.elim_some] at length
      have digits : Nat.toDigits 10 l = Nat.toDigits 10 0 := by
        rw [← length, Nat.repr_eq_ofList_toDigits, String.toList_ofList] at zero
        exact zero.symm
      obtain rfl : l = 0 := by
        have values := congrArg (Nat.ofDigitChars 10 · 0) digits
        rwa [Nat.ofDigitChars_toDigits (by decide) (by decide),
          Nat.ofDigitChars_toDigits (by decide) (by decide)] at values
      have all := simpleMaskLength_zero ones
      exact List.eq_replicate_iff.mpr ⟨size, all⟩

theorem to4_length {ip four : IP} (short : to4 ip = some four) : four.length = 4 := by
  unfold to4 at short
  split at short
  · rename_i length
    exact Option.some.inj short ▸ length
  · split at short
    · rename_i mapped
      rw [← Option.some.inj short, List.length_drop, mapped.1]
    · contradiction

/-- Only an address that To4 leaves alone has a colon in its text. -/
theorem colon_mem_string {ip : IP} (sixteen : ip.length = 16) (long : to4 ip = none) :
    ':' ∈ (IP.string ip).toList := by
  have nonempty : ip ≠ [] := fun empty => by simp [empty] at sixteen
  rw [IP.string, if_neg nonempty, addrFromSlice, if_neg (by omega), if_pos sixteen]
  dsimp only
  cases unmapped : (Addr.v6 (BitVec.ofNat 128 (octets ip)) "").unmap with
  | v4 bits =>
    have shape := (unmap_slice16 sixteen "").mp unmapped
    rw [shape] at long
    contradiction
  | v6 bits zone =>
    rw [Addr.string, String.toList_ofList]
    exact colon_mem_v6 bits zone

/-- The networks String prints as 0.0.0.0/0. For a mask of 16 bytes it looks at the last
four only. -/
theorem string_everyIPv4 (n : ByteNet) : n.string = "0.0.0.0/0" ↔ to4 n.ip = some [0, 0, 0, 0] ∧
    (n.mask = [0, 0, 0, 0] ∨ n.mask.length = 16 ∧ n.mask.drop 12 = [0, 0, 0, 0]) := by
  have printed : n.string = (networkNumberAndMask n).elim "<nil>" fun parts =>
      IP.string parts.1 ++ "/" ++
        (simpleMaskLength parts.2).elim (maskString parts.2) Nat.repr := by
    rw [ByteNet.string]
    cases networkNumberAndMask n with
    | none => rfl
    | some parts => cases ones : simpleMaskLength parts.2 <;> simp [ones]
  rw [printed, networkNumberAndMask]
  cases short : to4 n.ip with
  | some ip =>
    dsimp only
    by_cases four : n.mask.length = 4
    · rw [if_pos four, Option.elim_some]
      constructor
      · intro same
        obtain ⟨rfl, every⟩ := everyIPv4_text (to4_length short) four rfl same
        exact ⟨rfl, .inl every⟩
      · rintro ⟨address, every | ⟨size, -⟩⟩
        · rw [Option.some.inj address, every]
          decide
        · omega
    · rw [if_neg four]
      by_cases sixteen : n.mask.length = 16
      · rw [if_pos sixteen, Option.elim_some]
        constructor
        · intro same
          obtain ⟨rfl, every⟩ := everyIPv4_text (to4_length short) (by simp [sixteen]) rfl same
          exact ⟨rfl, .inr ⟨sixteen, every⟩⟩
        · rintro ⟨address, every | ⟨-, every⟩⟩
          · simp [every] at four
          · rw [Option.some.inj address, every]
            decide
      · rw [if_neg sixteen, Option.elim_none]
        refine iff_of_false (by decide) ?_
        rintro ⟨-, every | ⟨size, -⟩⟩
        · simp [every] at four
        · exact sixteen size
  | none =>
    dsimp only
    refine iff_of_false ?_ (by simp)
    split
    · rename_i sizes
      intro same
      have colon : ':' ∈ "0.0.0.0/0".toList := by
        rw [← same, Option.elim_some, String.toList_append, String.toList_append]
        exact List.mem_append_left _ (List.mem_append_left _ (colon_mem_string sizes.1 short))
      contradiction
    · decide

end Text
end TunnelOperator.Net
