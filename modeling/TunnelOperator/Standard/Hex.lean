import TunnelOperator.Standard.Quote

/-! Go's encoding/hex. -/
namespace TunnelOperator.Hex

def encode (bytes : List UInt8) : List Char := bytes.flatMap fun b => Strconv.hexDigits 2 b.toNat

def encodeToString (bytes : List UInt8) : String := String.ofList (encode bytes)

def digitValue (c : Char) : Nat := if c.isDigit then c.toNat - '0'.toNat
    else c.toNat - 'a'.toNat + 10

def decode : List Char → List UInt8
  | high :: low :: rest => UInt8.ofNat (16 * digitValue high + digitValue low) :: decode rest
  | _ => []

theorem decode_digits : ∀ n < 256, ∀ rest, decode (Strconv.hexDigits 2 n ++ rest) =
    UInt8.ofNat n :: decode rest := by
  have digits : ∀ n < 256, (Strconv.hexDigits 2 n).length = 2 ∧
      decode (Strconv.hexDigits 2 n) = [UInt8.ofNat n] := by decide +kernel
  intro n small rest
  obtain ⟨two, decoded⟩ := digits n small
  obtain ⟨high, low, shape⟩ := List.length_eq_two.mp two
  rw [shape] at decoded ⊢
  rw [decode] at decoded
  rw [List.cons_append, List.cons_append, List.nil_append, decode, (List.cons.inj decoded).1]

theorem decode_encode (bytes : List UInt8) : decode (encode bytes) = bytes := by
  induction bytes with
  | nil => rfl
  | cons byte rest ih =>
    rw [encode, List.flatMap_cons, decode_digits _ byte.toNat_lt, UInt8.ofNat_toNat]
    exact congrArg _ ih

theorem encodeToString_injective (same : encodeToString first = encodeToString second) :
    first = second := by
  rw [← decode_encode first, String.ofList_injective same, decode_encode]

end TunnelOperator.Hex
