import TunnelOperator.Library.CelGrammar
import TunnelOperator.Library.CelScanning

/-! Reading tokens as expressions, with the rest of the tokens present: an expression that
nothing can continue passes every level of the grammar as it is. -/
namespace TunnelOperator.CelText

/-- No expression before the rest continues into it. -/
def Closes (rest : List Token) : Prop :=
  ∀ t ∈ rest.head?, t = .sym .rparen ∨ t = .sym .rbracket ∨ t = .sym .rbrace ∨ t = .sym .comma ∨
    t = .sym .colon

theorem closes_nil : Closes [] := by simp [Closes]

section Levels
variable {expr : Reader Expr} {toks rest : List Token} {e : Expr}

theorem memberTail_closes (closes : Closes rest) (fuel : Nat) (e : Expr) :
    memberTail expr fuel e rest = some (e, rest) := by
  cases rest with
  | nil => cases fuel <;> rfl
  | cons t more =>
    rcases closes t rfl with rfl | rfl | rfl | rfl | rfl
    all_goals cases fuel <;> rfl

theorem chainTail_closes {op : Symbol → Option BinaryOp} {operand : Reader Expr}
    (closes : Closes rest)
    (none_of : op .rparen = none ∧ op .rbracket = none ∧ op .rbrace = none ∧ op .comma = none ∧
      op .colon = none)
    (fuel : Nat) (e : Expr) : chainTail op operand fuel e rest = some (e, rest) := by
  cases fuel with
  | zero => rfl
  | succ fuel =>
    cases rest with
    | nil => rfl
    | cons t more =>
      rcases closes t rfl with rfl | rfl | rfl | rfl | rfl
      all_goals simp only [chainTail, none_of]

theorem chain_closes {op : Symbol → Option BinaryOp} {operand : Reader Expr} (closes : Closes rest)
    (none_of : op .rparen = none ∧ op .rbracket = none ∧ op .rbrace = none ∧ op .comma = none ∧
      op .colon = none)
    (read : operand toks = some (e, rest)) : chain op operand toks = some (e, rest) := by
  simp only [chain, read, chainTail_closes closes none_of, bind, Option.bind]

theorem operators_closes (closes : Closes rest) (read : unary expr toks = some (e, rest)) :
    operators expr toks = some (e, rest) :=
  chain_closes closes ⟨rfl, rfl, rfl, rfl, rfl⟩ <| chain_closes closes ⟨rfl, rfl, rfl, rfl, rfl⟩ <|
    chain_closes closes ⟨rfl, rfl, rfl, rfl, rfl⟩ <|
      chain_closes closes ⟨rfl, rfl, rfl, rfl, rfl⟩ <|
      chain_closes closes ⟨rfl, rfl, rfl, rfl, rfl⟩ read

theorem expression_of_unary (closes : Closes rest)
    (read : unary (expression depth) toks = some (e, rest)) :
    expression (depth + 1) toks = some (e, rest) := by
  simp only [expression, operators_closes closes read, bind, Option.bind]
  split
  · rename_i more
    rcases closes _ rfl with same | same | same | same | same
    all_goals contradiction
  · rfl

theorem member_of_primary (closes : Closes rest) (read : primary expr toks = some (e, rest)) :
    member expr toks = some (e, rest) := by
  simp only [member, read, memberTail_closes closes, bind, Option.bind]

/-- An expression that is a primary. -/
theorem expression_of_primary (closes : Closes rest)
    (unsigned : ∀ t ∈ toks.head?, t ≠ .sym .bang ∧ t ≠ .sym .minus)
    (read : primary (expression depth) toks = some (e, rest)) :
    expression (depth + 1) toks = some (e, rest) := by
  have none_of : ∀ op, (op = .bang ∨ op = .minus) → signs op toks = (0, toks) := by
    rintro op which
    cases toks with
    | nil => rfl
    | cons t more =>
      obtain ⟨noBang, noMinus⟩ := unsigned t rfl
      cases t with
      | sym s =>
        have other : s ≠ op := by
          rintro rfl
          rcases which with rfl | rfl
          · exact noBang rfl
          · exact noMinus rfl
        simp [signs, other]
      | _ => rfl
  refine expression_of_unary closes ?_
  simp only [unary, none_of .bang (.inl rfl), none_of .minus (.inr rfl)]
  exact member_of_primary closes read

/-- A negated whole number. -/
theorem expression_negative (closes : Closes rest) (small : n < 2 ^ 63) :
    expression (depth + 1) (.sym .minus :: .int n :: rest) = some (.unary .neg (.int n), rest) := by
  refine expression_of_unary closes ?_
  have read : primary (expression depth) (.int n :: rest) = some (.int n, rest) := by
    simp only [primary, if_pos small]
  simp [unary, signs, member_of_primary closes read, signed]

/-- `item` reads the tokens `part.1` as `part.2` and does not take them for the end of a list
that closes with `close`. -/
structure ItemReads (item : Reader α) (close : Symbol) (part : List Token × α) : Prop where
  nonempty : part.1 ≠ []
  opens : part.1.head? ≠ some (.sym close)
  reads : ∀ {rest}, Closes rest → item (part.1 ++ rest) = some (part.2, rest)

/-- The symbols that close a list. -/
def Closer (s : Symbol) : Prop := s = .rparen ∨ s = .rbracket ∨ s = .rbrace

theorem Closer.closes (closer : Closer s) (rest : List Token) : Closes (.sym s :: rest) := by
  intro t here
  obtain rfl := Option.some.inj here
  rcases closer with rfl | rfl | rfl <;> simp

theorem closes_comma (rest : List Token) : Closes (.sym .comma :: rest) := by simp [Closes]

theorem closes_colon (rest : List Token) : Closes (.sym .colon :: rest) := by simp [Closes]

section Lists
variable {α : Type} {item : Reader α} {close : Symbol} {parts : List (List Token × α)}

theorem closes_tail (closer : Closer close) (parts : List (List Token × α)) (rest : List Token) :
    Closes (parts.flatMap (fun part => .sym .comma :: part.1) ++ .sym close :: rest) := by
  cases parts with
  | nil => exact closer.closes rest
  | cons part others => exact closes_comma _

theorem ItemReads.head (reads : ItemReads item close part) (more : List Token) :
    (part.1 ++ more).head? ≠ some (.sym close) := by
  obtain ⟨t, toks, shape⟩ := List.exists_cons_of_ne_nil reads.nonempty
  have opens := reads.opens
  rw [shape] at opens ⊢
  exact opens

theorem listTail_items (closer : Closer close) (items : ∀ part ∈ parts, ItemReads item close part)
    (enough : parts.length < fuel) :
    listTail item close fuel
      (parts.flatMap (fun part => .sym .comma :: part.1) ++ .sym close :: rest) =
      some (parts.map (·.2), rest) := by
  induction parts generalizing fuel with
  | nil =>
    obtain ⟨fuel, rfl⟩ := Nat.exists_eq_succ_of_ne_zero (Nat.ne_of_gt enough)
    rw [List.flatMap_nil, List.nil_append, listTail, if_pos rfl]
    rfl
  | cons part others ih =>
    obtain ⟨first, later⟩ := List.forall_mem_cons.mp items
    obtain ⟨fuel, rfl⟩ := Nat.exists_eq_succ_of_ne_zero
      (Nat.ne_of_gt (Nat.lt_of_le_of_lt (Nat.zero_le _) enough))
    have apart : Symbol.comma ≠ close := by rcases closer with rfl | rfl | rfl <;> decide
    have read := first.reads (closes_tail closer others rest)
    have others_read := ih later (Nat.lt_of_succ_lt_succ enough)
    rw [List.flatMap_cons, List.cons_append, List.cons_append, List.append_assoc, listTail,
      if_neg apart, if_neg (by simp), if_neg (first.head _), read]
    simp only [others_read, bind, Option.bind, pure, List.map_cons]

theorem length_le_intercalate {part : List Token} {parts : List (List Token)}
    (member : part ∈ parts) (sep : List Token) :
    part.length ≤ (sep.intercalate parts).length := by
  cases parts with
  | nil => contradiction
  | cons first others =>
    rw [intercalate_cons, List.length_append]
    rcases List.mem_cons.mp member with rfl | later
    · exact Nat.le_add_right _ _
    · have inside : (sep ++ part).Sublist (others.flatMap (sep ++ ·)) := by
        obtain ⟨before, after, rfl⟩ := List.append_of_mem later
        rw [List.flatMap_append, List.flatMap_cons]
        exact (List.sublist_append_left _ _).trans (List.sublist_append_right _ _)
      have length := inside.length_le
      rw [List.length_append] at length
      omega

theorem length_le_commas (parts : List (List Token × α)) :
    parts.length ≤ (parts.flatMap fun part => Token.sym .comma :: part.1).length := by
  induction parts with
  | nil => exact Nat.le_refl 0
  | cons part others ih =>
    rw [List.flatMap_cons, List.length_append, List.length_cons, List.length_cons]
    omega

theorem listOf_items (closer : Closer close) (items : ∀ part ∈ parts, ItemReads item close part) :
    listOf item close ([Token.sym .comma].intercalate (parts.map (·.1)) ++ .sym close :: rest) =
      some (parts.map (·.2), rest) := by
  cases parts with
  | nil => simp [listOf, List.intercalate]
  | cons part others =>
    obtain ⟨first, later⟩ := List.forall_mem_cons.mp items
    have shape : [Token.sym .comma].intercalate ((part :: others).map (·.1)) =
        part.1 ++ others.flatMap fun part => .sym .comma :: part.1 := by
      rw [List.map_cons, intercalate_cons, List.flatMap_map]
      rfl
    have read := first.reads (closes_tail closer others rest)
    have enough : others.length <
        (others.flatMap (fun part => Token.sym .comma :: part.1) ++ .sym close :: rest).length := by
      have least := length_le_commas others
      rw [List.length_append, List.length_cons]
      omega
    rw [shape, List.append_assoc, listOf, if_neg (first.head _), read]
    simp only [listTail_items closer later enough, bind, Option.bind, pure, List.map_cons]

end Lists

/-- A call with one argument. -/
theorem primary_call (allowed : fn ∉ reserved) (argument : ItemReads expr .rparen (toks, e)) :
    primary expr (.ident fn :: .sym .lparen :: (toks ++ .sym .rparen :: rest)) =
      some (.call fn [e], rest) := by
  have args : listOf expr .rparen
      ([Token.sym .comma].intercalate ([(toks, e)].map (·.1)) ++ .sym .rparen :: rest) =
      some ([(toks, e)].map (·.2), rest) := listOf_items (.inl rfl) (by simpa using argument)
  simp only [List.map_cons, List.map_nil, List.intercalate, List.intersperse, List.flatten_cons,
    List.flatten_nil, List.append_nil] at args
  simp [primary, primary.named, dotted, allowed, args]

theorem primary_list {parts : List (List Token × Expr)}
    (items : ∀ part ∈ parts, ItemReads expr .rbracket part) (rest : List Token) :
    primary expr (.sym .lbracket :: ([Token.sym .comma].intercalate (parts.map (·.1)) ++
      .sym .rbracket :: rest)) =
      some (.list (parts.map (·.2)), rest) := by
  simp only [primary, listOf_items (.inr (.inl rfl)) items, bind, Option.bind, pure]

theorem primary_map {parts : List (List Token × Expr × Expr)}
    (items : ∀ part ∈ parts, ItemReads (entry expr) .rbrace part) (rest : List Token) :
    primary expr (.sym .lbrace :: ([Token.sym .comma].intercalate (parts.map (·.1)) ++
      .sym .rbrace :: rest)) =
      some (.map (parts.map (·.2)), rest) := by
  simp only [primary, listOf_items (.inr (.inr rfl)) items, bind, Option.bind, pure]

end Levels
end TunnelOperator.CelText
