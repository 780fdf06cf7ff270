import TunnelOperator.Library.CelScanning
import TunnelOperator.Standard.Quote

/-! What strconv.Quote writes, CEL reads: every rune comes back from its escape, and no
rune ends the string. -/
namespace TunnelOperator.CelText
open Strconv

theorem digit?_digitChar : ∀ d < 16, digit? 16 (Nat.digitChar d) = some d := by decide

theorem hexDigits_succ (width value : Nat) :
    hexDigits (width + 1) value =
      Nat.digitChar (value / 16 ^ width % 16) :: hexDigits width value := by
  simp [hexDigits, List.range_succ]

/-- The digits of an escape, after some of the value was read. -/
theorem stringBody_digits (width value read : Nat) (rest : List Char) :
    stringBody false '"' false (.digits 16 (width + 1) read) (hexDigits (width + 1) value ++ rest) =
      (scalar? (read * 16 ^ (width + 1) + value % 16 ^ (width + 1))).bind fun c =>
        push c (stringBody false '"' false .plain rest) := by
  induction width generalizing read with
  | zero =>
    have digit := digit?_digitChar (value / 16 ^ 0 % 16) (Nat.mod_lt _ (by decide))
    rw [hexDigits_succ, List.cons_append, stringBody, digit]
    simp only [Nat.le_refl, ↓reduceIte, Nat.zero_add, Nat.pow_one, Nat.pow_zero, Nat.div_one]
    cases scalar? (read * 16 + value % 16) <;> rfl
  | succ width ih =>
    have digit := digit?_digitChar (value / 16 ^ (width + 1) % 16) (Nat.mod_lt _ (by decide))
    have value_split : read * 16 ^ (width + 2) + value % 16 ^ (width + 2) =
        (read * 16 + value / 16 ^ (width + 1) % 16) * 16 ^ (width + 1) + value % 16 ^ (width + 1) := by
      rw [Nat.mod_pow_succ, Nat.pow_succ, Nat.add_mul, Nat.mul_assoc, Nat.mul_comm 16,
        Nat.mul_comm (16 ^ (width + 1)) (value / _ % 16)]
      omega
    rw [hexDigits_succ, List.cons_append, stringBody, digit]
    dsimp only
    rw [if_neg (by omega), Nat.add_sub_cancel, ih, value_split]

theorem scalar?_toNat (c : Char) : scalar? c.toNat = some c := by
  rw [scalar?, if_pos (show c.toNat.isValidChar from c.valid), Char.ofNat_toNat]

/-- An escape of digits stands for its rune. -/
theorem stringBody_rune (width : Nat) (c : Char) (rest : List Char)
    (fits : c.toNat < 16 ^ (width + 1)) :
    stringBody false '"' false (.digits 16 (width + 1) 0) (hexDigits (width + 1) c.toNat ++ rest) =
      push c (stringBody false '"' false .plain rest) := by
  rw [stringBody_digits, Nat.zero_mul, Nat.zero_add, Nat.mod_eq_of_lt fits, scalar?_toNat,
    Option.bind_some]

theorem stringBody_plain {c : Char} (noQuote : c ≠ '"') (noEscape : c ≠ '\\')
    (noBreak : c ≠ '\n' ∧ c ≠ '\r') (rest : List Char) :
    stringBody false '"' false .plain (c :: rest) =
      push c (stringBody false '"' false .plain rest) := by
  simp [stringBody, closing, noQuote, noEscape, noBreak]

theorem stringBody_backslash (rest : List Char) :
    stringBody false '"' false .plain ('\\' :: rest) =
      stringBody false '"' false .escaped rest := by
  simp [stringBody, closing]

/-- The letters that say how many digits follow. -/
theorem stringBody_width {letter : Char} {width : Nat}
    (here : (letter, width) ∈ [('x', 2), ('u', 4), ('U', 8)]) (rest : List Char) :
    stringBody false '"' false .escaped (letter :: rest) = stringBody false '"' false
      (.digits 16 width 0) rest := by
  simp only [List.mem_cons, Prod.mk.injEq, List.not_mem_nil, or_false] at here
  rcases here with ⟨rfl, rfl⟩ | ⟨rfl, rfl⟩ | ⟨rfl, rfl⟩ <;> simp [stringBody]

/-- Either branch of a choice of escapes. -/
theorem stringBody_ite {p : Prop} [Decidable p] {yes no rest : List Char} {body : Option (List Char × List Char)}
    (then_ : p → stringBody false '"' false .plain (yes ++ rest) = body)
    (else_ : ¬p → stringBody false '"' false .plain (no ++ rest) = body) :
    stringBody false '"' false .plain ((if p then yes else no) ++ rest) = body := by
  by_cases holds : p
  · rw [if_pos holds, then_ holds]
  · rw [if_neg holds, else_ holds]

theorem stringBody_escaped (isPrint : Char → Bool) (c : Char) (rest : List Char) :
    stringBody false '"' false .plain (appendEscapedRune isPrint c ++ rest) =
      push c (stringBody false '"' false .plain rest) := by
  unfold appendEscapedRune
  refine stringBody_ite (fun special => ?_) fun ordinary => stringBody_ite (fun printable => ?_) fun _ => ?_
  · rcases special with rfl | rfl <;> rfl
  · rw [not_or] at ordinary
    refine stringBody_plain ordinary.1 ordinary.2 ⟨?_, ?_⟩ rest
    all_goals
      rintro rfl
      simp at printable
  -- The escapes of one letter.
  iterate 7
    refine stringBody_ite (fun same => ?_) fun _ => ?_
    · subst same
      rfl
  refine stringBody_ite (fun small => ?_) fun _ => stringBody_ite (fun middle => ?_) fun _ => ?_
  · rw [List.cons_append, List.cons_append, stringBody_backslash, stringBody_width (show ('x', 2) ∈ _ by decide)]
    exact stringBody_rune 1 c rest (by omega)
  · rw [List.cons_append, List.cons_append, stringBody_backslash, stringBody_width (show ('u', 4) ∈ _ by decide)]
    exact stringBody_rune 3 c rest middle
  · rw [List.cons_append, List.cons_append, stringBody_backslash, stringBody_width (show ('U', 8) ∈ _ by decide)]
    exact stringBody_rune 7 c rest c.val.toNat_lt

theorem stringBody_quote (isPrint : Char → Bool) (cs rest : List Char) :
    stringBody false '"' false .plain (cs.flatMap (appendEscapedRune isPrint) ++ '"' :: rest) =
      some (cs, rest) := by
  induction cs with
  | nil => rfl
  | cons c tail ih => rw [List.flatMap_cons, List.append_assoc, stringBody_escaped, ih, push,
    Option.map_some]

/-- The runes are not written with a quote in front: it would end the string. -/
theorem escaped_opens (isPrint : Char → Bool) (cs : List Char) :
    (cs.flatMap (appendEscapedRune isPrint)).head? ≠ some '"' := by
  intro opens
  obtain ⟨more, shape⟩ := List.head?_eq_some_iff.mp opens
  have read := stringBody_quote isPrint cs []
  rw [shape] at read
  simp [stringBody, closing] at read

/-- A quoted string is one token, whatever it says and whatever follows it. -/
theorem token_quote (isPrint : Char → Bool) (s : String) (ends : Ends rest) :
    token ((quoteWith isPrint s).toList ++ rest) = some (.str s, rest) := by
  have text : (quoteWith isPrint s).toList ++ rest =
      '"' :: s.toList.flatMap (appendEscapedRune isPrint) ++ '"' :: rest := by
    simp [quoteWith]
  rw [text, token_string _ (stringBody_quote isPrint s.toList rest)
    (escaped_opens isPrint s.toList) ends, String.ofList_toList]

end TunnelOperator.CelText
