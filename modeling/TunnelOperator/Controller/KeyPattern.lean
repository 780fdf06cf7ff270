import TunnelOperator.Library.CharClass
import TunnelOperator.Controller.PeersProofs

/-! The pattern of spec.publicKey in the CRD (api/v1alpha1/wireguardpeer_types.go) beside
the check of the controller: both accept the 44 characters that base64 writes for 32 bytes,
42 of them free, one with its two low bits clear, and one of padding. -/
namespace TunnelOperator.Controller
open Pattern RegularExpression

/-- [A-Za-z0-9+/] -/
def keyAlphabet : List Char :=
  charRange 'A' 'Z' ++ charRange 'a' 'z' ++ charRange '0' '9' ++ ['+', '/']

/-- [AEIMQUYcgkosw480] -/
def keyEndings : List Char := "AEIMQUYcgkosw480".toList

/-- ^[A-Za-z0-9+/]{42}[AEIMQUYcgkosw480]=$ -/
def publicKeyPattern : RegularExpression Char :=
  oneOf keyAlphabet ^ 42 * oneOf keyEndings * char '='

section Encoding

theorem mem_keyAlphabet {c : Char} : c ∈ keyAlphabet ↔ ∃ n < 64, c = Base64.encodeChar n := by
  have listed : keyAlphabet = (List.range 64).map Base64.encodeChar := by decide
  simp [listed, eq_comm]

theorem mem_keyEndings {c : Char} : c ∈ keyEndings ↔ ∃ n < 16, c = Base64.encodeChar (4 * n) := by
  have listed : keyEndings.Perm ((List.range 16).map fun n => Base64.encodeChar (4 * n)) := by
    decide
  simp [listed.mem_iff, eq_comm]

theorem exists_cons {l : List α} (size : l.length = n + 1) :
    ∃ a rest, l = a :: rest ∧ rest.length = n := by
  obtain ⟨a, rest, rfl⟩ := List.exists_cons_of_length_eq_add_one size
  exact ⟨a, rest, rfl, Nat.succ.inj size⟩

/-- Whole quanta, and a last one with one character of padding. -/
def PaddedOnce (quanta : Nat) (cs : List Char) : Prop :=
  ∃ front last, cs = front ++ [last, '='] ∧ front.length = 4 * quanta + 2 ∧
    (∀ c ∈ front, c ∈ keyAlphabet) ∧ last ∈ keyEndings

theorem encode_paddedOnce {quanta : Nat} {bytes : List UInt8}
    (size : bytes.length = 3 * quanta + 2) :
    PaddedOnce quanta (Base64.encode bytes) := by
  induction quanta generalizing bytes with
  | zero =>
    obtain ⟨a, b, rfl⟩ := List.length_eq_two.mp size
    have ha := a.toNat_lt
    have hb := b.toNat_lt
    refine ⟨[_, _], _, rfl, rfl, ?_, ?_⟩
    · simp only [List.mem_cons, List.not_mem_nil, or_false, forall_eq_or_imp, forall_eq]
      exact ⟨mem_keyAlphabet.mpr ⟨_, by omega, rfl⟩, mem_keyAlphabet.mpr ⟨_, by omega, rfl⟩⟩
    · exact mem_keyEndings.mpr ⟨b.toNat % 16, by omega, congrArg _ (Nat.mul_comm ..)⟩
  | succ quanta ih =>
    obtain ⟨a, tail, rfl, two⟩ := exists_cons (n := 3 * quanta + 4) size
    obtain ⟨b, tail, rfl, one⟩ := exists_cons two
    obtain ⟨c, rest, rfl, shorter⟩ := exists_cons one
    have ha := a.toNat_lt
    have hb := b.toNat_lt
    have hc := c.toNat_lt
    obtain ⟨front, last, encoded, length, members, ending⟩ := ih shorter
    refine ⟨_ :: _ :: _ :: _ :: front, last, by rw [Base64.encode, encoded]; rfl, ?_, ?_, ending⟩
    · simp [length]
      omega
    · simp only [List.mem_cons, forall_eq_or_imp]
      refine ⟨?_, ?_, ?_, ?_, members⟩
      all_goals exact mem_keyAlphabet.mpr ⟨_, by omega, rfl⟩

/-- The bytes of four sextets, and the sextets of these bytes. -/
theorem encode_quantum {w x y z : Nat} (hw : w < 64) (hx : x < 64) (hy : y < 64) (hz : z < 64)
    (rest : List UInt8) : Base64.encode (Base64.quantum w x y z ++ rest) =
      Base64.encodeChar w :: Base64.encodeChar x :: Base64.encodeChar y :: Base64.encodeChar z ::
        Base64.encode rest := by
  have first : (w * 4 + x / 16) % 2 ^ 8 / 4 = w := by omega
  have second : (w * 4 + x / 16) % 2 ^ 8 % 4 * 16 + (x % 16 * 16 + y / 4) % 2 ^ 8 / 16 =
    x := by omega
  have third : (x % 16 * 16 + y / 4) % 2 ^ 8 % 16 * 4 + (y % 4 * 64 + z) % 2 ^ 8 / 64 =
    y := by omega
  have fourth : (y % 4 * 64 + z) % 2 ^ 8 % 64 = z := by omega
  simp only [Base64.quantum, List.cons_append, List.nil_append, Base64.encode, UInt8.toNat_ofNat']
  rw [first, second, third, fourth]

theorem exists_encode {quanta : Nat} {cs : List Char} (padded : PaddedOnce quanta cs) :
    ∃ bytes : List UInt8, bytes.length = 3 * quanta + 2 ∧ Base64.encode bytes = cs := by
  induction quanta generalizing cs with
  | zero =>
    obtain ⟨front, last, rfl, length, members, ending⟩ := padded
    obtain ⟨a, b, rfl⟩ := List.length_eq_two.mp length
    obtain ⟨w, hw, rfl⟩ := mem_keyAlphabet.mp (members a (by simp))
    obtain ⟨x, hx, rfl⟩ := mem_keyAlphabet.mp (members b (by simp))
    obtain ⟨n, hn, rfl⟩ := mem_keyEndings.mp ending
    refine ⟨[UInt8.ofNat (w * 4 + x / 16), UInt8.ofNat (x % 16 * 16 + n)], rfl, ?_⟩
    have first : (w * 4 + x / 16) % 2 ^ 8 / 4 = w := by omega
    have second : (w * 4 + x / 16) % 2 ^ 8 % 4 * 16 + (x % 16 * 16 + n) % 2 ^ 8 / 16 = x := by omega
    have third : (x % 16 * 16 + n) % 2 ^ 8 % 16 * 4 = 4 * n := by omega
    simp only [Base64.encode, UInt8.toNat_ofNat', List.cons_append, List.nil_append]
    rw [first, second, third]
  | succ quanta ih =>
    obtain ⟨front, last, rfl, length, members, ending⟩ := padded
    obtain ⟨a, tail, rfl, three⟩ := exists_cons (n := 4 * quanta + 5) length
    obtain ⟨b, tail, rfl, two⟩ := exists_cons three
    obtain ⟨c, tail, rfl, one⟩ := exists_cons two
    obtain ⟨d, rest, rfl, shorter⟩ := exists_cons one
    simp only [List.mem_cons, forall_eq_or_imp] at members
    obtain ⟨first, second, third, fourth, others⟩ := members
    obtain ⟨w, hw, rfl⟩ := mem_keyAlphabet.mp first
    obtain ⟨x, hx, rfl⟩ := mem_keyAlphabet.mp second
    obtain ⟨y, hy, rfl⟩ := mem_keyAlphabet.mp third
    obtain ⟨z, hz, rfl⟩ := mem_keyAlphabet.mp fourth
    obtain ⟨bytes, size, encoded⟩ := ih ⟨rest, last, rfl, shorter, others, ending⟩
    refine ⟨Base64.quantum w x y z ++ bytes, by simp [Base64.quantum, size]; omega, ?_⟩
    rw [encode_quantum hw hx hy hz, encoded]
    rfl

end Encoding

theorem mem_publicKeyPattern {cs : List Char} :
    cs ∈ publicKeyPattern.matches' ↔ PaddedOnce 10 cs := by
  simp only [publicKeyPattern, matches'_mul, Language.mem_mul, mem_oneOf_pow, mem_oneOf,
    matches'_char]
  constructor
  · rintro ⟨_, ⟨front, ⟨length, members⟩, _, ⟨last, ending, rfl⟩, rfl⟩, _, rfl, rfl⟩
    exact ⟨front, last, by simp, length, members, ending⟩
  · rintro ⟨front, last, rfl, length, members, ending⟩
    exact ⟨front ++ [last], ⟨front, ⟨length, members⟩, [last], ⟨last, ending, rfl⟩, rfl⟩, ['='],
      rfl, by simp⟩

theorem canonicalKey_iff_padded (text : String) :
    CanonicalKey text ↔ PaddedOnce 10 text.toList := by
  constructor
  · rintro ⟨key, rfl⟩
    rw [Wgtypes.Key.string, String.toList_ofList]
    exact encode_paddedOnce key.size
  · intro padded
    obtain ⟨bytes, size, encoded⟩ := exists_encode padded
    exact ⟨⟨bytes, size⟩, by rw [Wgtypes.Key.string, encoded, String.ofList_toList]⟩

/-- The pattern accepts exactly the keys in which the controller finds no problem, which
are those that parse and print back as themselves. -/
theorem pattern_iff_admitted (peer : WireguardPeer) :
    (peer.spec.publicKey.toList ∈ publicKeyPattern.matches' ↔
      peer.spec.publicKey ≠ "" ∧ admissionProblem peer = none) ∧
    (admissionProblem peer = none ↔
      ∃ key, Wgtypes.parseKey peer.spec.publicKey = some key ∧
        key.string = peer.spec.publicKey) := by
  rw [mem_publicKeyPattern, ← canonicalKey_iff_padded, admissionProblem_eq_none_iff]
  constructor
  · exact ⟨fun canonical => ⟨canonical.ne_empty, canonical⟩, And.right⟩
  · constructor
    · rintro ⟨key, text⟩
      exact ⟨key, by rw [text, Wgtypes.parseKey_string], text.symm⟩
    · rintro ⟨key, -, text⟩
      exact ⟨key, text.symm⟩

end TunnelOperator.Controller
