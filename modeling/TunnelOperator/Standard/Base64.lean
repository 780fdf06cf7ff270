import Mathlib.Data.List.Basic
import Mathlib.Tactic.IntervalCases

/-! Go's base64.StdEncoding. Decoding skips carriage returns and line feeds wherever
they stand, demands padding, and ignores the bits that padding leaves over. -/
namespace TunnelOperator.Base64

def encodeChar (n : Nat) : Char :=
  if n < 26 then Char.ofNat ('A'.toNat + n)
  else if n < 52 then Char.ofNat ('a'.toNat + (n - 26))
  else if n < 62 then Char.ofNat ('0'.toNat + (n - 52))
  else if n = 62 then '+' else '/'

def decodeChar (c : Char) : Option Nat :=
  if 'A' ≤ c ∧ c ≤ 'Z' then some (c.toNat - 'A'.toNat)
  else if 'a' ≤ c ∧ c ≤ 'z' then some (c.toNat - 'a'.toNat + 26)
  else if '0' ≤ c ∧ c ≤ '9' then some (c.toNat - '0'.toNat + 52)
  else if c = '+' then some 62
  else if c = '/' then some 63
  else none

def encode : List UInt8 → List Char
  | a :: b :: c :: rest =>
    encodeChar (a.toNat / 4) :: encodeChar (a.toNat % 4 * 16 + b.toNat / 16) ::
      encodeChar (b.toNat % 16 * 4 + c.toNat / 64) :: encodeChar (c.toNat % 64) :: encode rest
  | [a, b] =>
    [encodeChar (a.toNat / 4), encodeChar (a.toNat % 4 * 16 + b.toNat / 16),
      encodeChar (b.toNat % 16 * 4), '=']
  | [a] => [encodeChar (a.toNat / 4), encodeChar (a.toNat % 4 * 16), '=', '=']
  | [] => []

/-- The bytes of up to four sextets, the last of them possibly missing. -/
def quantum (first second third fourth : Nat) : List UInt8 :=
  [UInt8.ofNat (first * 4 + second / 16), UInt8.ofNat (second % 16 * 16 + third / 4),
    UInt8.ofNat (third % 4 * 64 + fourth)]

def decodeQuanta : List Char → Option (List UInt8)
  | [] => some []
  | a :: b :: c :: d :: rest =>
    match decodeChar a, decodeChar b, decodeChar c, decodeChar d with
    | some first, some second, some third, some fourth =>
      (decodeQuanta rest).map (quantum first second third fourth ++ ·)
    | some first, some second, some third, none =>
      if d = '=' ∧ rest = [] then some ((quantum first second third 0).take 2) else none
    | some first, some second, none, _ =>
      if c = '=' ∧ d = '=' ∧ rest = [] then some ((quantum first second 0 0).take 1) else none
    | _, _, _, _ => none
  | _ => none

def decode (cs : List Char) : Option (List UInt8) :=
  decodeQuanta (cs.filter fun c => c ≠ '\r' ∧ c ≠ '\n')

theorem decodeChar_encodeChar {n : Nat} (small : n < 64) : decodeChar (encodeChar n) = some n := by
  interval_cases n <;> rfl

/-- A character that DecodeString does not skip and that is one byte long. -/
def Plain (c : Char) : Prop := c ≠ '\r' ∧ c ≠ '\n' ∧ c.utf8Size = 1

instance (c : Char) : Decidable (Plain c) := inferInstanceAs (Decidable (_ ∧ _ ∧ _))

theorem encodeChar_plain {n : Nat} (small : n < 64) : Plain (encodeChar n) := by
  interval_cases n <;> decide

theorem encode_plain (bytes : List UInt8) : ∀ c ∈ encode bytes, Plain c := by
  induction bytes using encode.induct with
  | case1 a b c rest ih =>
    have ha := a.toNat_lt
    have hb := b.toNat_lt
    have hc := c.toNat_lt
    intro ch member
    simp only [encode, List.mem_cons] at member
    rcases member with rfl | rfl | rfl | rfl | member
    · exact encodeChar_plain (by omega)
    · exact encodeChar_plain (by omega)
    · exact encodeChar_plain (by omega)
    · exact encodeChar_plain (by omega)
    · exact ih ch member
  | case2 a b =>
    have ha := a.toNat_lt
    have hb := b.toNat_lt
    intro ch member
    simp only [encode, List.mem_cons, List.not_mem_nil, or_false] at member
    rcases member with rfl | rfl | rfl | rfl
    · exact encodeChar_plain (by omega)
    · exact encodeChar_plain (by omega)
    · exact encodeChar_plain (by omega)
    · decide
  | case3 a =>
    have ha := a.toNat_lt
    intro ch member
    simp only [encode, List.mem_cons, List.not_mem_nil, or_false] at member
    rcases member with rfl | rfl | rfl | rfl
    · exact encodeChar_plain (by omega)
    · exact encodeChar_plain (by omega)
    · decide
    · decide
  | case4 => simp [encode]

theorem encode_length (bytes : List UInt8) :
    (encode bytes).length = (bytes.length + 2) / 3 * 4 := by
  induction bytes using encode.induct with
  | case1 a b c rest ih =>
    simp only [encode, List.length_cons, ih]
    omega
  | case2 a b => simp [encode]
  | case3 a => simp [encode]
  | case4 => rfl

theorem byte_of_value {value : Nat} (byte : UInt8) (same : value = byte.toNat) :
    UInt8.ofNat value = byte := by
  rw [same, UInt8.ofNat_toNat]

theorem decodeQuanta_encode (bytes : List UInt8) : decodeQuanta (encode bytes) = some bytes := by
  induction bytes using encode.induct with
  | case1 a b c rest ih =>
    have ha := a.toNat_lt
    have hb := b.toNat_lt
    have hc := c.toNat_lt
    simp only [encode, decodeQuanta, decodeChar_encodeChar (show a.toNat / 4 < 64 by omega),
      decodeChar_encodeChar (show a.toNat % 4 * 16 + b.toNat / 16 < 64 by omega),
      decodeChar_encodeChar (show b.toNat % 16 * 4 + c.toNat / 64 < 64 by omega),
      decodeChar_encodeChar (show c.toNat % 64 < 64 by omega), ih, Option.map_some, quantum,
      List.cons_append, List.nil_append]
    rw [byte_of_value a (by omega), byte_of_value b (by omega),
      byte_of_value c (by omega)]
  | case2 a b =>
    have ha := a.toNat_lt
    have hb := b.toNat_lt
    have pad : decodeChar '=' = none := rfl
    simp only [encode, decodeQuanta, decodeChar_encodeChar (show a.toNat / 4 < 64 by omega),
      decodeChar_encodeChar (show a.toNat % 4 * 16 + b.toNat / 16 < 64 by omega),
      decodeChar_encodeChar (show b.toNat % 16 * 4 < 64 by omega), pad, and_self, if_true,
      quantum, List.take_succ_cons, List.take_zero]
    rw [byte_of_value a (by omega), byte_of_value b (by omega)]
  | case3 a =>
    have ha := a.toNat_lt
    have pad : decodeChar '=' = none := rfl
    simp only [encode, decodeQuanta, decodeChar_encodeChar (show a.toNat / 4 < 64 by omega),
      decodeChar_encodeChar (show a.toNat % 4 * 16 < 64 by omega), pad, and_self, if_true,
      quantum, List.take_succ_cons, List.take_zero]
    rw [byte_of_value a (by omega)]
  | case4 => rfl

theorem decode_encode (bytes : List UInt8) : decode (encode bytes) = some bytes := by
  have kept : (encode bytes).filter (fun c => c ≠ '\r' ∧ c ≠ '\n') = encode bytes := by
    rw [List.filter_eq_self]
    intro c member
    obtain ⟨noReturn, noNewline, -⟩ := encode_plain bytes c member
    simpa using ⟨noReturn, noNewline⟩
  rw [decode, kept, decodeQuanta_encode]

theorem encode_forall {holds : Char → Prop} (sextet : ∀ n < 64, holds (encodeChar n))
    (pad : holds '=') (bytes : List UInt8) : ∀ c ∈ encode bytes, holds c := by
  induction bytes using encode.induct with
  | case1 a b c rest ih =>
    have ha := a.toNat_lt
    have hb := b.toNat_lt
    have hc := c.toNat_lt
    simp only [encode, List.forall_mem_cons]
    exact ⟨sextet _ (by omega), sextet _ (by omega), sextet _ (by omega), sextet _ (by omega), ih⟩
  | case2 a b =>
    have ha := a.toNat_lt
    have hb := b.toNat_lt
    simp only [encode, List.forall_mem_cons, List.not_mem_nil, false_imp_iff,
      implies_true, and_true]
    exact ⟨sextet _ (by omega), sextet _ (by omega), sextet _ (by omega), pad⟩
  | case3 a =>
    have ha := a.toNat_lt
    simp only [encode, List.forall_mem_cons, List.not_mem_nil, false_imp_iff,
      implies_true, and_true]
    exact ⟨sextet _ (by omega), sextet _ (by omega), pad, pad⟩
  | case4 => simp [encode]

/-- Four characters are at most three bytes. -/
theorem decodeQuanta_length (cs : List Char) (decoded : decodeQuanta cs = some bytes) :
    bytes.length ≤ cs.length / 4 * 3 := by
  fun_induction decodeQuanta cs generalizing bytes with
  | case1 =>
    obtain rfl := Option.some.inj decoded
    exact Nat.le_refl 0
  | case2 a b c d rest first second third fourth ha hb hc hd ih =>
    obtain ⟨tail, here, rfl⟩ := Option.map_eq_some_iff.mp decoded
    have shorter := ih here
    simp only [quantum, List.length_append, List.length_cons, List.length_nil]
    omega
  | case3 a b c d rest first second third ha hb hc hd last =>
    obtain rfl := Option.some.inj decoded
    simp only [quantum, List.length_take, List.length_cons, List.length_nil]
    omega
  | case5 a b c d rest first second ha hb hc last =>
    obtain rfl := Option.some.inj decoded
    simp only [quantum, List.length_take, List.length_cons, List.length_nil]
    omega
  | case4 | case6 | case7 | case8 => contradiction

theorem decode_length {cs : List Char} (decoded : decode cs = some bytes) :
    bytes.length ≤ cs.length / 4 * 3 := by
  have filtered := decodeQuanta_length _ decoded
  have shorter := List.length_filter_le (fun c => decide (c ≠ '\r' ∧ c ≠ '\n')) cs
  omega

end TunnelOperator.Base64

/-! WireGuard keys: 32 bytes, spelled in base64. -/
namespace TunnelOperator.Wgtypes

structure Key where
  bytes : List UInt8
  size : bytes.length = 32
  deriving DecidableEq

/-- One byte throughout. -/
def Key.filled (byte : UInt8) : Key := ⟨List.replicate 32 byte, List.length_replicate⟩

def Key.string (key : Key) : String := String.ofList (Base64.encode key.bytes)

def parseKey (s : String) : Option Key :=
  match Base64.decode s.toList with
  | none => none
  | some bytes => if size : bytes.length = 32 then some ⟨bytes, size⟩ else none

theorem parseKey_string (key : Key) : parseKey key.string = some key := by
  have decoded : Base64.decode key.string.toList = some key.bytes := by
    rw [Key.string, String.toList_ofList, Base64.decode_encode]
  unfold parseKey
  split
  · rename_i failed
    rw [decoded] at failed
    contradiction
  · rename_i bytes parsed
    rw [decoded] at parsed
    cases parsed
    rw [dif_pos key.size]

theorem Key.string_injective {a b : Key} (same : a.string = b.string) : a = b := by
  have parsed := parseKey_string a
  rw [same, parseKey_string b] at parsed
  exact (Option.some.inj parsed).symm

theorem utf8ByteSize_plain {cs : List Char} (plain : ∀ c ∈ cs, Base64.Plain c) :
    (String.ofList cs).utf8ByteSize = cs.length := by
  induction cs with
  | nil => rfl
  | cons c rest ih =>
    obtain ⟨⟨-, -, one⟩, plain⟩ := List.forall_mem_cons.mp plain
    have split : String.ofList (c :: rest) = String.singleton c ++ String.ofList rest := by
      rw [← String.toList_inj]
      simp
    rw [split, String.utf8ByteSize_append, ih plain, String.utf8ByteSize_singleton, one,
      List.length_cons, Nat.add_comm]

theorem Key.string_size (key : Key) : key.string.utf8ByteSize = 44 := by
  rw [Key.string, utf8ByteSize_plain (Base64.encode_plain _), Base64.encode_length, key.size]

theorem Key.string_ne_empty (key : Key) : key.string ≠ "" := by
  intro empty
  have parsed := parseKey_string key
  have rejected : parseKey "" = none := by decide
  rw [empty, rejected] at parsed
  contradiction

theorem Key.string_length (key : Key) : key.string.toList.length = 44 := by
  rw [Key.string, String.toList_ofList, Base64.encode_length, key.size]

/-- No text shorter than a key is read as one. -/
theorem parseKey_length {s : String} {key : Key} (parsed : parseKey s = some key) :
    44 ≤ s.toList.length := by
  unfold parseKey at parsed
  split at parsed
  · contradiction
  · rename_i bytes decoded
    have bound := Base64.decode_length decoded
    split at parsed
    · omega
    · contradiction

end TunnelOperator.Wgtypes
