import TunnelOperator.Standard.Addr
import Mathlib.Data.List.Flatten
import Mathlib.Tactic.IntervalCases

/-! An IPv4 text has exactly one spelling: what parses as an IPv4 address is the text
that address prints, and every printed address parses back. -/
namespace TunnelOperator.Netip
open Addr

theorem digit_isDigit (n : Nat) (small : n < 10) : (digit n).isDigit = true := by
  interval_cases n <;> rfl

theorem digit_value (n : Nat) (small : n < 10) : (digit n).toNat - '0'.toNat = n := by
  interval_cases n <;> rfl

theorem digit_of_isDigit {c : Char} (isDigit : c.isDigit = true) :
    c.toNat - '0'.toNat < 10 ∧ digit (c.toNat - '0'.toNat) = c := by
  have bounds : 48 ≤ c.toNat ∧ c.toNat ≤ 57 := by
    simpa [Char.isDigit, UInt32.le_iff_toNat_le] using isDigit
  have zero : '0'.toNat = 48 := rfl
  refine ⟨by omega, ?_⟩
  apply Char.toNat_inj.mp
  rw [digit, Nat.toNat_digitChar_of_lt_ten (by omega)]
  omega

/-- The digits of the field being read. -/
def pending (val digLen : Nat) : List Char := if digLen = 0 then [] else appendDecimal val

/-- Reading without leading zeros keeps the digit count that of the printed value. -/
def Spelled (val digLen : Nat) : Prop :=
  (digLen = 0 ∧ val = 0) ∨ (digLen = 1 ∧ val < 10) ∨ (digLen = 2 ∧ 10 ≤ val ∧ val < 100) ∨
    (digLen = 3 ∧ 100 ≤ val ∧ val < 256)

theorem pending_digit {val digLen d : Nat} (spelled : Spelled val digLen) (small : d < 10)
    (leading : ¬ (digLen = 1 ∧ val = 0)) (bound : val * 10 + d ≤ 255) :
    Spelled (val * 10 + d) (digLen + 1) ∧
      pending (val * 10 + d) (digLen + 1) = pending val digLen ++ [digit d] := by
  rcases spelled with ⟨rfl, rfl⟩ | ⟨rfl, low⟩ | ⟨rfl, low, high⟩ | ⟨rfl, low, high⟩
  · refine ⟨by unfold Spelled; omega, ?_⟩
    have whole : d % 10 = d := by omega
    simp [pending, appendDecimal, whole, show ¬ 100 ≤ d by omega, show ¬ 10 ≤ d by omega]
  · have positive : val ≠ 0 := fun zero => leading ⟨rfl, zero⟩
    refine ⟨by unfold Spelled; omega, ?_⟩
    have tens : (val * 10 + d) / 10 % 10 = val := by omega
    have ones : (val * 10 + d) % 10 = d := by omega
    have whole : val % 10 = val := by omega
    simp [pending, appendDecimal, tens, ones, whole, show ¬ 100 ≤ val * 10 + d by omega,
      show 10 ≤ val * 10 + d by omega, show ¬ 100 ≤ val by omega, show ¬ 10 ≤ val by omega]
  · refine ⟨by unfold Spelled; omega, ?_⟩
    have hundreds : (val * 10 + d) / 100 = val / 10 := by omega
    have tens : (val * 10 + d) / 10 % 10 = val % 10 := by omega
    have ones : (val * 10 + d) % 10 = d := by omega
    have lead : val / 10 % 10 = val / 10 := by omega
    simp [pending, appendDecimal, hundreds, tens, ones, lead, show 100 ≤ val * 10 + d by omega,
      show 10 ≤ val * 10 + d by omega, show ¬ 100 ≤ val by omega, low]
  · omega

def dotted (fields : List Nat) : List Char :=
  fields.flatMap fun field => appendDecimal field ++ ['.']

theorem dotted_append (fields : List Nat) (val : Nat) :
    dotted (fields ++ [val]) = dotted fields ++ (appendDecimal val ++ ['.']) := by
  simp [dotted]

/-- What the field loop accepts is the dotted spelling of the fields it returns. -/
theorem parseIPv4Fields_spelling {input : String} {fields out : List Nat} {val digLen : Nat}
    {cs : List Char} (spelled : Spelled val digLen) (small : ∀ field ∈ fields, field < 256)
    (open_ : digLen = 0 → cs ≠ [])
    (parsed : parseIPv4Fields input fields val digLen cs = .ok out) :
    ∃ init last, out = init ++ [last] ∧ 3 ≤ init.length ∧ (∀ field ∈ out, field < 256) ∧
      dotted init ++ appendDecimal last = dotted fields ++ pending val digLen ++ cs ∧
      (fields.length ≤ 3 → init.length = 3) := by
  induction cs generalizing fields val digLen with
  | nil =>
    have digits : digLen ≠ 0 := fun zero => open_ zero rfl
    unfold parseIPv4Fields at parsed
    split at parsed
    · contradiction
    · rename_i enough
      cases parsed
      have bound : val < 256 := by
        rcases spelled with ⟨_, h⟩ | ⟨_, h⟩ | ⟨_, _, h⟩ | ⟨_, _, h⟩ <;> omega
      refine ⟨fields, val, rfl, by omega, ?_, by simp [pending, digits], by omega⟩
      intro field member
      rcases List.mem_append.mp member with old | new
      · exact small field old
      · obtain rfl := List.mem_singleton.mp new
        exact bound
  | cons c rest ih =>
    unfold parseIPv4Fields at parsed
    split at parsed
    · rename_i isDigit
      obtain ⟨value, spelling⟩ := digit_of_isDigit isDigit
      split at parsed
      · contradiction
      rename_i leading
      split at parsed
      · contradiction
      rename_i bound
      obtain ⟨next, text⟩ := pending_digit spelled value leading (by omega)
      obtain ⟨init, last, rfl, count, bounds, same, exact_⟩ :=
        ih next small (fun zero => absurd zero (by omega)) parsed
      refine ⟨init, last, rfl, count, bounds, ?_, exact_⟩
      rw [same, text, spelling]
      simp
    · split at parsed
      · rename_i isDot
        subst c
        split at parsed
        · contradiction
        rename_i separated
        split at parsed
        · contradiction
        rename_i room
        have bound : val < 256 := by
          rcases spelled with ⟨_, h⟩ | ⟨_, h⟩ | ⟨_, _, h⟩ | ⟨_, _, h⟩ <;> omega
        have extended : ∀ field ∈ fields ++ [val], field < 256 := by
          intro field member
          rcases List.mem_append.mp member with old | new
          · exact small field old
          · obtain rfl := List.mem_singleton.mp new
            exact bound
        obtain ⟨init, last, rfl, count, bounds, same, exact_⟩ :=
          ih (.inl ⟨rfl, rfl⟩) extended (fun _ empty => separated (.inr empty)) parsed
        have digits : digLen ≠ 0 := fun zero => separated (.inl zero)
        refine ⟨init, last, rfl, count, bounds, ?_, ?_⟩
        · rw [same, dotted_append]
          simp [pending, digits]
        · intro few
          exact exact_ (by simp only [List.length_append, List.length_singleton]; omega)
      · contradiction

theorem fromOctets_four (a b c d : Nat) :
    fromOctets [a, b, c, d] = ((a * 256 + b) * 256 + c) * 256 + d := by
  simp [fromOctets]

theorem octets_of_fields {a b c d : Nat} (ha : a < 256) (hb : b < 256) (hc : c < 256)
    (hd : d < 256) :
    text4 (BitVec.ofNat 32 (fromOctets [a, b, c, d])) =
      dotted [a, b, c] ++ appendDecimal d := by
  have whole : (BitVec.ofNat 32 (fromOctets [a, b, c, d])).toNat =
      ((a * 256 + b) * 256 + c) * 256 + d := by
    rw [BitVec.toNat_ofNat, fromOctets_four]
    omega
  have first : octet (BitVec.ofNat 32 (fromOctets [a, b, c, d])) 3 = a := by
    simp only [octet, whole]; omega
  have second : octet (BitVec.ofNat 32 (fromOctets [a, b, c, d])) 2 = b := by
    simp only [octet, whole]; omega
  have third : octet (BitVec.ofNat 32 (fromOctets [a, b, c, d])) 1 = c := by
    simp only [octet, whole]; omega
  have fourth : octet (BitVec.ofNat 32 (fromOctets [a, b, c, d])) 0 = d := by
    simp only [octet, whole]; omega
  simp [text4, first, second, third, fourth, dotted]

theorem parseIPv4_spelling {s : String} {addr : Addr} (nonempty : s.toList ≠ [])
    (parsed : parseIPv4 s = .ok addr) : ∃ bits, addr = .v4 bits ∧ text4 bits = s.toList := by
  unfold parseIPv4 at parsed
  split at parsed
  · rename_i fields read
    cases parsed
    obtain ⟨init, last, rfl, -, small, same, count⟩ :=
      parseIPv4Fields_spelling (.inl ⟨rfl, rfl⟩) (by simp) (fun _ => nonempty) read
    obtain ⟨a, b, c, rfl⟩ := List.length_eq_three.mp (count (by simp))
    refine ⟨_, rfl, ?_⟩
    rw [List.cons_append, List.cons_append, List.cons_append, List.nil_append,
      octets_of_fields (small a (by simp)) (small b (by simp)) (small c (by simp))
        (small last (by simp)), same]
    simp [dotted, pending]
  · contradiction

theorem parseIPv6_v6 {s : String} {addr : Addr} (parsed : parseIPv6 s = .ok addr) :
    ∃ bits zone, addr = .v6 bits zone := by
  unfold parseIPv6 at parsed
  simp only [bind, Except.bind, pure, Except.pure] at parsed
  repeat' split at parsed
  all_goals first | contradiction | (cases parsed; exact ⟨_, _, rfl⟩)

/-- An IPv4 address has one spelling. -/
theorem parseAddr_canonical {s : String} {bits : BitVec 32}
    (parsed : parseAddr s = .ok (.v4 bits)) : (Addr.v4 bits).string = s := by
  unfold parseAddr at parsed
  split at parsed
  · rename_i found
    have nonempty : s.toList ≠ [] := by
      intro empty
      simp [empty] at found
    obtain ⟨_, same, text⟩ := parseIPv4_spelling nonempty parsed
    cases same
    simp only [Addr.string, Addr.text, text, String.ofList_toList]
  · obtain ⟨_, _, other⟩ := parseIPv6_v6 parsed
    cases other
  · contradiction
  · contradiction

theorem parseIPv4Fields_digit {input : String} {fields : List Nat} {val digLen d : Nat}
    {rest : List Char} (small : d < 10) (leading : ¬ (digLen = 1 ∧ val = 0))
    (bound : val * 10 + d ≤ 255) :
    parseIPv4Fields input fields val digLen (digit d :: rest) =
      parseIPv4Fields input fields (val * 10 + d) (digLen + 1) rest := by
  rw [parseIPv4Fields, if_pos (digit_isDigit d small), if_neg leading, digit_value d small,
    if_neg (by omega)]

theorem parseIPv4Fields_octet {input : String} {fields : List Nat} {n : Nat} {rest : List Char}
    (small : n < 256) :
    parseIPv4Fields input fields 0 0 (appendDecimal n ++ rest) =
      parseIPv4Fields input fields n (appendDecimal n).length rest := by
  unfold appendDecimal
  rcases Nat.lt_or_ge n 10 with low | tens
  · rw [if_neg (by omega), if_neg (by omega), List.nil_append, List.nil_append,
      List.singleton_append, parseIPv4Fields_digit (by omega) (by omega) (by omega)]
    simp [Nat.mod_eq_of_lt low]
  rcases Nat.lt_or_ge n 100 with low | hundreds
  · rw [if_neg (by omega), if_pos tens, List.nil_append, List.singleton_append, List.cons_append,
      List.singleton_append, parseIPv4Fields_digit (by omega) (by omega) (by omega),
      parseIPv4Fields_digit (by omega) (by omega) (by omega)]
    have whole : (0 * 10 + n / 10 % 10) * 10 + n % 10 = n := by omega
    simp only [whole, List.length_cons, List.length_nil, Nat.zero_add]
  · rw [if_pos hundreds, if_pos tens, List.singleton_append, List.cons_append,
      List.singleton_append, List.cons_append, List.cons_append, List.singleton_append,
      parseIPv4Fields_digit (by omega) (by omega) (by omega),
      parseIPv4Fields_digit (by omega) (by omega) (by omega),
      parseIPv4Fields_digit (by omega) (by omega) (by omega)]
    have whole : ((0 * 10 + n / 100) * 10 + n / 10 % 10) * 10 + n % 10 = n := by omega
    simp only [whole, List.length_cons, List.length_nil, Nat.zero_add]

theorem appendDecimal_length_pos (n : Nat) : (appendDecimal n).length ≠ 0 := by
  simp [appendDecimal]

theorem appendDecimal_ne_nil (n : Nat) : appendDecimal n ≠ [] := by
  simp [appendDecimal]

theorem parseIPv4Fields_dot {input : String} {fields : List Nat} {val digLen : Nat}
    {rest : List Char} (digits : digLen ≠ 0) (more : rest ≠ []) (room : fields.length < 3) :
    parseIPv4Fields input fields val digLen ('.' :: rest) =
      parseIPv4Fields input (fields ++ [val]) 0 0 rest := by
  rw [parseIPv4Fields, if_neg (by decide), if_pos rfl, if_neg (by simp [digits, more]),
    if_neg (by omega)]

theorem octet_lt (bits : BitVec 32) (place : Nat) : octet bits place < 256 :=
  Nat.mod_lt _ (by decide)

theorem fromOctets_octets (bits : BitVec 32) :
    fromOctets [octet bits 3, octet bits 2, octet bits 1, octet bits 0] = bits.toNat := by
  have bound := bits.isLt
  rw [fromOctets_four]
  simp only [octet]
  omega

theorem parseIPv4Fields_text4 (input : String) (bits : BitVec 32) :
    parseIPv4Fields input [] 0 0 (text4 bits) =
      .ok [octet bits 3, octet bits 2, octet bits 1, octet bits 0] := by
  simp only [text4, List.append_assoc, List.cons_append]
  rw [parseIPv4Fields_octet (octet_lt bits 3),
    parseIPv4Fields_dot (appendDecimal_length_pos _) (by simp [appendDecimal_ne_nil]) (by simp),
    parseIPv4Fields_octet (octet_lt bits 2),
    parseIPv4Fields_dot (appendDecimal_length_pos _) (by simp [appendDecimal_ne_nil]) (by simp),
    parseIPv4Fields_octet (octet_lt bits 1),
    parseIPv4Fields_dot (appendDecimal_length_pos _) (by simp [appendDecimal_ne_nil]) (by simp)]
  have last : parseIPv4Fields input ([] ++ [octet bits 3] ++ [octet bits 2] ++ [octet bits 1]) 0 0
      (appendDecimal (octet bits 0) ++ []) = _ := parseIPv4Fields_octet (octet_lt bits 0)
  rw [List.append_nil] at last
  rw [last, parseIPv4Fields, if_neg (by simp)]
  simp

theorem appendDecimal_isDigit (n : Nat) (small : n < 1000) :
    ∀ c ∈ appendDecimal n, c.isDigit = true := by
  intro c member
  simp only [appendDecimal, List.mem_append, List.mem_singleton] at member
  rcases member with (member | member) | rfl
  · split at member
    · obtain rfl := List.mem_singleton.mp member
      exact digit_isDigit _ (by omega)
    · contradiction
  · split at member
    · obtain rfl := List.mem_singleton.mp member
      exact digit_isDigit _ (by omega)
    · contradiction
  · exact digit_isDigit _ (by omega)

/-- Digits and dots only. -/
theorem text4_chars (bits : BitVec 32) : ∀ c ∈ text4 bits, c.isDigit = true ∨ c = '.' := by
  intro c member
  have digits (place : Nat) : ∀ c ∈ appendDecimal (octet bits place), c.isDigit = true :=
    appendDecimal_isDigit _ (Nat.lt_trans (octet_lt bits place) (by decide))
  simp only [text4, List.append_assoc, List.cons_append, List.mem_append, List.mem_cons] at member
  rcases member with h | rfl | h | rfl | h | rfl | h
  · exact .inl (digits 3 c h)
  · exact .inr rfl
  · exact .inl (digits 2 c h)
  · exact .inr rfl
  · exact .inl (digits 1 c h)
  · exact .inr rfl
  · exact .inl (digits 0 c h)

theorem text4_find (bits : BitVec 32) :
    (text4 bits).find? (fun c => c = '.' ∨ c = ':' ∨ c = '%') = some '.' := by
  have plain : (appendDecimal (octet bits 3)).find?
      (fun c => c = '.' ∨ c = ':' ∨ c = '%') = none := by
    rw [List.find?_eq_none]
    intro c member
    have isDigit := appendDecimal_isDigit _ (Nat.lt_trans (octet_lt bits 3) (by decide)) c member
    simp only [decide_eq_true_eq]
    rintro (rfl | rfl | rfl) <;> contradiction
  simp only [text4, List.append_assoc, List.cons_append, List.find?_append, plain, Option.none_or]
  rfl

/-- Every IPv4 address parses back from the text it prints. -/
theorem parseAddr_string (bits : BitVec 32) : parseAddr (Addr.v4 bits).string = .ok (.v4 bits) := by
  have list : (Addr.v4 bits).string.toList = text4 bits := by
    simp only [Addr.string, Addr.text, String.toList_ofList]
  simp only [parseAddr, list, text4_find, parseIPv4, parseIPv4Fields_text4, fromOctets_octets,
    BitVec.ofNat_toNat, BitVec.setWidth_eq]

theorem parseAddr_v4_iff {s : String} {bits : BitVec 32} :
    parseAddr s = .ok (.v4 bits) ↔ s = (Addr.v4 bits).string := by
  constructor
  · intro parsed
    exact (parseAddr_canonical parsed).symm
  · rintro rfl
    exact parseAddr_string bits

theorem string_v4_injective {a b : BitVec 32} (same : (Addr.v4 a).string = (Addr.v4 b).string) :
    a = b := by
  have parsed := parseAddr_string a
  rw [same, parseAddr_string b] at parsed
  cases parsed
  rfl

theorem string_v4_ne_empty (bits : BitVec 32) : (Addr.v4 bits).string ≠ "" := by
  intro empty
  have parsed := parseAddr_string bits
  rw [empty] at parsed
  have : parseAddr "" = .error (parseAddrError "" "unable to parse IP" []) := by rfl
  rw [this] at parsed
  contradiction

end TunnelOperator.Netip
