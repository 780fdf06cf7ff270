import TunnelOperator.Injection.CelLiteral
import TunnelOperator.Library.CelReading

/-! What it is for a text to denote a value, and the parts of a rendered literal that do:
strings, numbers, booleans, and members in dyn(…). -/
namespace TunnelOperator.Injection
open CelText

/-- The text is read as the tokens, these as the expression, and it has the value. -/
structure Denotes (text : List Char) (toks : List Token) (e : Expr) (value : Json) : Prop where
  lexes : ∀ {rest}, Ends rest → Reads (text ++ rest) toks rest
  nonempty : toks ≠ []
  opens : toks.head? ≠ some (.sym .rparen)
  parses : ∀ {depth rest}, toks.length ≤ depth → Closes rest → expression depth (toks ++ rest) =
    some (e, rest)
  valued : e.eval = some value
  wrapped : Wrapped e

section Leaves

theorem reads_one {text : List Char} (found : token (text ++ rest) = some (t, rest))
    (begins : ∃ c tail, text = c :: tail ∧ isSpace c = false ∧ c ≠ '/') :
    Reads (text ++ rest) [t] rest := by
  obtain ⟨c, tail, rfl, solid, start⟩ := begins
  exact .token solid start found (by simp) .done

/-- A literal of one token. -/
theorem denotes_token {text : List Char}
    (found : ∀ {rest}, Ends rest → token (text ++ rest) = some (t, rest))
    (begins : ∃ c tail, text = c :: tail ∧ isSpace c = false ∧ c ≠ '/') (plain : ∀ s, t ≠ .sym s)
    (read : ∀ (expr : Reader Expr) (rest : List Token), primary expr (t :: rest) = some (e, rest))
    (valued : e.eval = some value) (wrapped : Wrapped e) : Denotes text [t] e value where
  lexes ends := reads_one (found ends) begins
  nonempty := by simp
  opens := by simpa using plain .rparen
  parses {depth rest} enough closes := by
    obtain ⟨depth, rfl⟩ := Nat.exists_eq_add_of_le' enough
    refine expression_of_primary closes ?_ (read _ rest)
    intro first here
    obtain rfl := Option.some.inj here
    exact ⟨plain .bang, plain .minus⟩
  valued := valued
  wrapped := wrapped

theorem denotes_str (isPrint : Char → Bool) (s : String) :
    Denotes (Strconv.quoteWith isPrint s).toList [.str s] (.str s) (.str s) := by
  have begins : (Strconv.quoteWith isPrint s).toList =
      '"' :: (s.toList.flatMap (Strconv.appendEscapedRune isPrint) ++ ['"']) := by
    rw [Strconv.quoteWith, String.toList_ofList, List.cons_append]
  exact denotes_token (fun ends => token_quote isPrint s ends)
    ⟨_, _, begins, by decide, by decide⟩ (by simp) (fun _ _ => rfl) (by rw [Expr.eval]) (.str s)

theorem denotes_bool (b : Bool) :
    Denotes (if b then "true" else "false" : String).toList [.bool b] (.bool b) (.bool b) := by
  cases b with
  | true =>
    refine denotes_token (fun ends => ?_)
      ⟨'t', ['r', 'u', 'e'], rfl, by decide, by decide⟩ (by simp)
      (fun _ _ => rfl) (by rw [Expr.eval]) (.bool true)
    exact token_word (by decide) ⟨'t', ['r', 'u', 'e'], rfl, by decide, by decide⟩ ends
  | false =>
    refine denotes_token (fun ends => ?_)
      ⟨'f', ['a', 'l', 's', 'e'], rfl, by decide, by decide⟩ (by simp)
      (fun _ _ => rfl) (by rw [Expr.eval]) (.bool false)
    exact token_word (by decide) ⟨'f', ['a', 'l', 's', 'e'], rfl, by decide, by decide⟩ ends

theorem repr_begins (n : Nat) : ∃ c tail, (Nat.repr n).toList = c :: tail ∧ isSpace c = false ∧
    c ≠ '/' := by
  rw [Nat.toList_repr]
  obtain ⟨c, tail, shape⟩ := List.exists_cons_of_ne_nil (Nat.toDigits_ne_nil (n := n) (b := 10))
  have digit : c.isDigit = true :=
    Nat.isDigit_of_mem_toDigits (by decide) (by decide) (shape ▸ List.mem_cons_self)
  refine ⟨c, tail, shape, ?_, ?_⟩
  · cases blank : isSpace c with
    | false => rfl
    | true =>
      simp only [isSpace, Bool.or_eq_true, decide_eq_true_eq] at blank
      rcases blank with (((rfl | rfl) | rfl) | rfl) | rfl <;> contradiction
  · rintro rfl
    contradiction

theorem denotes_num (n : Int) (small : n.natAbs ≤ 2 ^ 53) :
    ∃ toks e, Denotes (formatWhole n).toList toks e (.int n) := by
  cases n with
  | ofNat n =>
    have fits : n < 2 ^ 63 := by
      simp only [Int.ofNat_eq_natCast, Int.natAbs_natCast] at small; omega
    refine ⟨[.int n], .int n,
      denotes_token (token_repr n) (repr_begins n) (by simp) ?_ (by rw [Expr.eval]; rfl) (.int n)⟩
    intro expr rest
    simp only [primary, if_pos fits]
  | negSucc n =>
    have fits : n + 1 < 2 ^ 63 := by simp only [Int.natAbs_negSucc] at small; omega
    have text : (formatWhole (.negSucc n)).toList = '-' :: (Nat.repr (n + 1)).toList := by
      simp [formatWhole]
    refine ⟨[.sym .minus, .int (n + 1)], .unary .neg (.int (n + 1)),
      ?_, by simp, by simp, ?_, ?_, .neg (n + 1)⟩
    · intro rest ends
      rw [text]
      refine .token (by decide) (by decide) (token_symbol ⟨by decide, by decide, by decide⟩ rfl)
        (Nat.le_refl _) ?_
      exact reads_one (token_repr (n + 1) ends) (repr_begins (n + 1))
    · intro depth rest enough closes
      obtain ⟨depth, rfl⟩ := Nat.exists_eq_add_of_le' (Nat.le_of_succ_le enough)
      exact expression_negative closes fits
    · simp only [Expr.eval, Int.negSucc_eq]
      rfl

end Leaves

section Members
variable {text : List Char} {toks : List Token} {e : Expr} {value : Json}

/-- The tokens of dyn(…). -/
def dynTokens (toks : List Token) : List Token :=
  .ident "dyn" :: .sym .lparen :: (toks ++ [.sym .rparen])

theorem reads_dyn (denotes : Denotes text toks e value) (rest : List Char) :
    Reads ("dyn(".toList ++ text ++ [')'] ++ rest) (dynTokens toks) rest := by
  have word : token (['d', 'y', 'n'] ++ '(' :: (text ++ ')' :: rest)) =
      some (.ident "dyn", '(' :: (text ++ ')' :: rest)) :=
    token_word (by decide) ⟨'d', ['y', 'n'], rfl, by decide, by decide⟩ (ends_cons (by decide) _)
  have close : Reads (')' :: rest) [.sym .rparen] rest :=
    .token (by decide) (by decide) (token_symbol ⟨by decide, by decide, by decide⟩ rfl)
      (Nat.le_refl _) .done
  have inner : Reads (text ++ ')' :: rest) (toks ++ [.sym .rparen]) rest :=
    (denotes.lexes (ends_cons (by decide) _)).append close
  have opened : Reads ('(' :: (text ++ ')' :: rest))
      (.sym .lparen :: (toks ++ [.sym .rparen])) rest :=
    .token (by decide) (by decide) (token_symbol ⟨by decide, by decide, by decide⟩ rfl)
      (Nat.le_refl _) inner
  have whole : "dyn(".toList ++ text ++ [')'] ++ rest = ['d', 'y', 'n'] ++
    '(' :: (text ++ ')' :: rest) := by simp
  rw [whole]
  exact (reads_one word ⟨'d', ['y', 'n'], rfl, by decide, by decide⟩).append opened

theorem expression_dyn (denotes : Denotes text toks e value)
    (enough : (dynTokens toks).length ≤ depth)
    (closes : Closes rest) :
    expression depth (dynTokens toks ++ rest) = some (.call "dyn" [e], rest) := by
  simp only [dynTokens, List.length_cons, List.length_append, List.length_nil] at enough
  obtain ⟨depth, rfl⟩ := Nat.exists_eq_add_of_le' (show 1 ≤ depth by omega)
  have shape : dynTokens toks ++
      rest = .ident "dyn" :: .sym .lparen :: (toks ++ .sym .rparen :: rest) := by
    simp [dynTokens]
  rw [shape]
  refine expression_of_primary closes (by simp) (primary_call (by decide) ?_)
  exact ⟨denotes.nonempty, denotes.opens, fun later => denotes.parses (by omega) later⟩

def entryTokens (k : String) (toks : List Token) : List Token :=
  .str k :: .sym .colon :: dynTokens toks

theorem reads_entry (isPrint : Char → Bool) (k : String) (denotes : Denotes text toks e value)
    (rest : List Char) :
    Reads ((Strconv.quoteWith isPrint k).toList ++ ": dyn(".toList ++ text ++ [')'] ++ rest)
      (entryTokens k toks) rest := by
  have shape : (Strconv.quoteWith isPrint k).toList ++ ": dyn(".toList ++ text ++ [')'] ++ rest =
      (Strconv.quoteWith isPrint k).toList ++
        ':' :: ' ' :: ("dyn(".toList ++ text ++ [')'] ++ rest) := by
    simp
  rw [shape]
  refine ((denotes_str isPrint k).lexes (ends_cons (by decide) _)).append ?_
  refine .token (by decide) (by decide) (token_symbol ⟨by decide, by decide, by decide⟩ rfl)
    (Nat.le_refl _) ?_
  exact .space (by decide) (reads_dyn denotes rest)

theorem entry_dyn (denotes : Denotes text toks e value)
    (enough : (entryTokens k toks).length ≤ depth) (closes : Closes rest) :
    entry (expression depth) (entryTokens k toks ++ rest) =
      some ((.str k, .call "dyn" [e]), rest) := by
  simp only [entryTokens, List.length_cons] at enough
  have key : expression depth (.str k :: .sym .colon :: (dynTokens toks ++ rest)) =
      some (.str k, .sym .colon :: (dynTokens toks ++ rest)) :=
    (denotes_str (fun _ => true) k).parses (by simp; omega) (closes_colon _)
  have member := expression_dyn denotes (show (dynTokens toks).length ≤ depth by omega) closes
  simp only [entryTokens, List.cons_append, entry, key, member, bind, Option.bind, pure]

end Members

end TunnelOperator.Injection
