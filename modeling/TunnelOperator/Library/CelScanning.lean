import TunnelOperator.Library.CelLexer

/-! Scanning a text from left to right. What is read is judged with the rest of the input
present, so that parts compose. -/
namespace TunnelOperator.CelText

inductive Reads : List Char → List Token → List Char → Prop where
  | done : Reads rest [] rest
  | space : isSpace c = true → Reads cs ts rest → Reads (c :: cs) ts rest
  | token : isSpace c = false → c ≠ '/' → token (c :: cs) = some (t, after) →
      after.length ≤ cs.length →
      Reads after ts rest → Reads (c :: cs) (t :: ts) rest

theorem Reads.append (first : Reads cs ts middle) (second : Reads middle us rest) :
    Reads cs (ts ++ us) rest := by
  induction first with
  | done => exact second
  | space blank _ ih => exact .space blank (ih second)
  | token solid start found shorter _ ih => exact .token solid start found shorter (ih second)

theorem Reads.lexAll (reads : Reads cs ts []) (enough : cs.length ≤ fuel) :
    lexAll fuel cs = some ts := by
  generalize ending : ([] : List Char) = rest at reads
  induction reads generalizing fuel with
  | done =>
    subst ending
    cases fuel <;> rfl
  | space blank _ ih =>
    obtain ⟨fuel, rfl⟩ := Nat.exists_eq_succ_of_ne_zero
      (Nat.ne_of_gt (Nat.lt_of_lt_of_le (Nat.succ_pos _) enough))
    rw [CelText.lexAll, if_pos blank]
    exact ih (Nat.le_of_succ_le_succ enough) ending
  | token solid start found shorter _ ih =>
    obtain ⟨fuel, rfl⟩ := Nat.exists_eq_succ_of_ne_zero
      (Nat.ne_of_gt (Nat.lt_of_lt_of_le (Nat.succ_pos _) enough))
    rw [CelText.lexAll, if_neg (by simp [solid]), if_neg (fun comment => start comment.1), found]
    dsimp only
    rw [ih (Nat.le_trans shorter (Nat.le_of_succ_le_succ enough)) ending, Option.map_some]

theorem Reads.lex (reads : Reads cs ts []) : lex cs = some ts := reads.lexAll (Nat.le_refl _)

/-- No token before the rest can reach into it. -/
def Ends (rest : List Char) : Prop :=
  ∀ c ∈ rest.head?, isWord c = false ∧ isQuote c = false ∧ c ≠ '.'

theorem ends_nil : Ends [] := by simp [Ends]

theorem ends_cons (apart : isWord c = false ∧ isQuote c = false ∧ c ≠ '.') (rest : List Char) :
    Ends (c :: rest) := by
  simpa [Ends] using apart

section Tokens
variable {rest : List Char}

/-- A character that starts a symbol and nothing else. -/
theorem token_symbol (apart : isWord c = false ∧ isQuote c = false ∧ c ≠ '.')
    (found : symbol (c :: cs) = some (s, rest)) : token (c :: cs) = some (.sym s, rest) := by
  obtain ⟨noWord, noQuote, noDot⟩ := apart
  have noLetter : c.isDigit = false ∧ c ≠ 'r' ∧ c ≠ 'R' ∧ c ≠ 'b' ∧ c ≠ 'B' := by
    refine ⟨?_, ?_, ?_, ?_, ?_⟩
    · simp only [isWord, Bool.or_eq_false_iff] at noWord
      exact noWord.2
    all_goals rintro rfl; contradiction
  have string : stringToken (c :: cs) = none := by
    simp [stringToken, noQuote, noLetter]
  have point : fraction (c :: cs) = none := by
    unfold fraction
    split
    · rename_i same
      exact absurd (List.cons.inj same).1 noDot
    · rfl
  have digits : number (c :: cs) = none := by
    simp [number, noLetter.1, point]
  simp [token, string, digits, noWord, found]

theorem takeWhile_ends (test : Char → Bool) (word : List Char) (all : ∀ c ∈ word, test c = true)
    (stops : ∀ c ∈ rest.head?, test c = false) : (word ++ rest).takeWhile test = word := by
  rw [List.takeWhile_append_of_pos all]
  cases rest with
  | nil => simp
  | cons c tail => simp [stops c (by simp)]

/-- A word of which no letter opens a string. -/
theorem token_word {name : List Char} (letters : name.all isWord = true)
    (first : ∃ c tail, name = c :: tail ∧ isLetter c = true ∧ c ∉ ['r', 'R', 'b', 'B'])
    (ends : Ends rest) :
    token (name ++ rest) = some (word (String.ofList name), rest) := by
  have read : (name ++ rest).takeWhile isWord = name :=
    takeWhile_ends isWord name (List.all_eq_true.mp letters) fun c here => (ends c here).1
  obtain ⟨c, tail, rfl, letter, plain⟩ := first
  have noQuote : isQuote c = false := by
    cases quote : isQuote c with
    | false => rfl
    | true =>
      rw [isQuote, Bool.or_eq_true, decide_eq_true_eq, decide_eq_true_eq] at quote
      rcases quote with rfl | rfl <;> contradiction
  have noDigit : c.isDigit = false := by
    cases digit : c.isDigit with
    | false => rfl
    | true =>
      have alpha : c.isAlpha = (decide ('A'.val ≤ c.val ∧ c.val ≤ 'Z'.val) ||
          (decide ('a'.val ≤ c.val) && decide (c.val ≤ 'z'.val))) := rfl
      simp only [isLetter, alpha, Bool.or_eq_true, Bool.and_eq_true, decide_eq_true_eq] at letter
      simp only [Char.isDigit, Bool.and_eq_true, decide_eq_true_eq] at digit
      rcases letter with (upper | lower) | rfl
      · have := Nat.le_trans upper.1 digit.2
        contradiction
      · have := Nat.le_trans lower.1 digit.2
        contradiction
      · exact absurd digit.2 (by decide)
  simp only [List.mem_cons, List.not_mem_nil, or_false, not_or] at plain
  have string : stringToken (c :: tail ++ rest) = none := by
    simp [stringToken, noQuote, plain]
  have point : fraction (c :: tail ++ rest) = none := by
    rw [List.cons_append]
    unfold fraction
    split
    · rename_i same
      rw [(List.cons.inj same).1] at letter
      contradiction
    · rfl
  have digits : number (c :: tail ++ rest) = none := by
    rw [List.cons_append] at point ⊢
    simp [number, noDigit, point]
  have length : (c :: tail ++ rest).drop (c :: tail).length = rest := List.drop_left
  simp only [token, string, digits, read, length]

theorem Ends.ne (ends : Ends rest) (taken : isWord c = true ∨ c = '.') (more : List Char) :
    rest ≠ c :: more := by
  rintro rfl
  obtain ⟨noWord, -, noDot⟩ := ends c (by simp)
  rcases taken with isword | dot
  · rw [noWord] at isword
    contradiction
  · exact noDot dot

theorem fraction_ends (ends : Ends rest) : fraction rest = none := by
  unfold fraction
  split
  · rename_i more
    exact absurd rfl (ends.ne (.inr rfl) more)
  · rfl

theorem exponent_ends (ends : Ends rest) : exponent rest = none := by
  cases rest with
  | nil => rfl
  | cons c more =>
    have small : c ≠ 'e' := fun same => ends.ne (.inl (by rw [same]; decide)) more rfl
    have large : c ≠ 'E' := fun same => ends.ne (.inl (by rw [same]; decide)) more rfl
    simp [exponent, small, large]

theorem integer_ends (value : Nat) (ends : Ends rest) :
    integer value rest = (.int value, rest) := by
  cases rest with
  | nil => rfl
  | cons c more =>
    have small : c ≠ 'u' := fun same => ends.ne (.inl (by rw [same]; decide)) more rfl
    have large : c ≠ 'U' := fun same => ends.ne (.inl (by rw [same]; decide)) more rfl
    simp [integer, small, large]

theorem token_int {digits : List Char} (nonempty : digits ≠ [])
    (all : ∀ c ∈ digits, c.isDigit = true)
    (ends : Ends rest) : token (digits ++ rest) = some (.int (numeral 10 digits), rest) := by
  have read : (digits ++ rest).takeWhile Char.isDigit = digits := by
    refine takeWhile_ends _ digits all fun c here => ?_
    have noWord := (ends c here).1
    simp only [isWord, Bool.or_eq_false_iff] at noWord
    exact noWord.2
  have string : stringToken (digits ++ rest) = none := by
    obtain ⟨c, tail, rfl⟩ := List.exists_cons_of_ne_nil nonempty
    have digit := all c List.mem_cons_self
    have apart : isQuote c = false ∧ c ≠ 'r' ∧ c ≠ 'R' ∧ c ≠ 'b' ∧ c ≠ 'B' := by
      refine ⟨?_, ?_, ?_, ?_, ?_⟩
      · cases quote : isQuote c with
        | false => rfl
        | true =>
          rw [isQuote, Bool.or_eq_true, decide_eq_true_eq, decide_eq_true_eq] at quote
          rcases quote with rfl | rfl <;> contradiction
      all_goals rintro rfl; contradiction
    simp [stringToken, apart]
  have length : (digits ++ rest).drop digits.length = rest := List.drop_left
  have found : number (digits ++ rest) = some (.int (numeral 10 digits), rest) := by
    simp only [number, read, length, fraction_ends ends, exponent_ends ends, if_neg nonempty]
    split
    · rename_i more
      exact absurd rfl (ends.ne (.inl (by decide)) more)
    · rw [integer_ends _ ends]
  simp only [token, string, found]

theorem digit?_ten {c : Char} (digit : c.isDigit = true) :
    digit? 10 c = some (c.toNat - '0'.toNat) := by
  have small : c.toNat - '0'.toNat < 10 := by
    simp only [Char.isDigit, Bool.and_eq_true, decide_eq_true_eq] at digit
    have top : c.toNat ≤ '9'.toNat := digit.2
    have bound : '9'.toNat = '0'.toNat + 9 := by decide
    omega
  simpa [digit?, digit] using small

theorem numeral_toDigits (n : Nat) : numeral 10 (Nat.toDigits 10 n) = n := by
  have fold : ∀ (digits : List Char), (∀ c ∈ digits, c.isDigit = true) → ∀ value,
      digits.foldl (fun value c => value * 10 + (digit? 10 c).getD 0) value =
        Nat.ofDigitChars 10 digits value := by
    intro digits all
    induction digits with
    | nil => exact fun _ => rfl
    | cons c rest ih =>
      intro value
      obtain ⟨first, later⟩ := List.forall_mem_cons.mp all
      rw [List.foldl_cons, ih later, Nat.ofDigitChars_cons, digit?_ten first, Option.getD_some,
        Nat.mul_comm]
  rw [numeral, fold _ fun c member => Nat.isDigit_of_mem_toDigits (by decide) (by decide) member]
  exact Nat.ofDigitChars_toDigits (by decide) (by decide)

theorem token_repr (n : Nat) (ends : Ends rest) :
    token ((Nat.repr n).toList ++ rest) = some (.int n, rest) := by
  rw [Nat.toList_repr, token_int Nat.toDigits_ne_nil
    (fun c member => Nat.isDigit_of_mem_toDigits (by decide) (by decide) member) ends,
      numeral_toDigits]

/-- A string in double quotes that is not the empty one before another quote. -/
theorem token_string {body : List Char} (text : List Char)
    (read : stringBody false '"' false .plain (text ++ '"' :: rest) = some (body, rest))
    (opens : text.head? ≠ some '"') (ends : Ends rest) :
    token ('"' :: text ++ '"' :: rest) = some (.str (String.ofList body), rest) := by
  have single : quoted false ('"' :: (text ++ '"' :: rest)) = some (body, rest) := by
    unfold quoted
    dsimp only
    rw [if_neg (by decide)]
    split
    · rename_i b c after shape
      rw [if_neg, read]
      rintro ⟨rfl, rfl⟩
      cases text with
      | nil =>
        obtain rfl := (List.cons.inj shape).2
        obtain ⟨-, noQuote, -⟩ := ends '"' (by simp)
        contradiction
      | cons d tail =>
        obtain rfl := (List.cons.inj shape).1
        exact opens rfl
    · rw [read]
  have string : stringToken ('"' :: (text ++ '"' :: rest)) =
      some (.str (String.ofList body), rest) := by
    simp only [stringToken]
    rw [if_pos (by decide), single, Option.map_some]
  simp only [token, List.cons_append, string]

theorem intercalate_cons (sep first : List β) (others : List (List β)) :
    sep.intercalate (first :: others) = first ++ others.flatMap (sep ++ ·) := by
  induction others generalizing first with
  | nil => simp [List.intercalate]
  | cons second others ih =>
    have step : sep.intercalate (first :: second :: others) = first ++
        (sep ++ sep.intercalate (second :: others)) := by
      simp [List.intercalate]
    rw [step, ih, List.flatMap_cons, List.append_assoc]

/-- Texts with commas between them. -/
theorem reads_commas (parts : List (List Char × List Token))
    (each : ∀ part ∈ parts, ∀ rest, Reads (part.1 ++ rest) part.2 rest) (rest : List Char) :
    Reads ([',', ' '].intercalate (parts.map (·.1)) ++ rest)
      ([Token.sym .comma].intercalate (parts.map (·.2))) rest := by
  cases parts with
  | nil => exact .done
  | cons first others =>
    obtain ⟨one, later⟩ := List.forall_mem_cons.mp each
    have tail : Reads ((others.map (·.1)).flatMap ([',', ' '] ++ ·) ++ rest)
        ((others.map (·.2)).flatMap ([Token.sym .comma] ++ ·)) rest := by
      clear each one
      induction others with
      | nil => exact .done
      | cons part others ih =>
        obtain ⟨one, later⟩ := List.forall_mem_cons.mp later
        simp only [List.map_cons, List.flatMap_cons, List.append_assoc, List.cons_append,
          List.nil_append]
        refine .token (by decide) (by decide) (token_symbol ⟨by decide, by decide, by decide⟩ rfl)
          (Nat.le_refl _) ?_
        exact .space (by decide) ((one _).append (ih later))
    rw [List.map_cons, List.map_cons, intercalate_cons, intercalate_cons, List.append_assoc]
    exact (one _).append tail

end Tokens

end TunnelOperator.CelText
