import TunnelOperator.Injection.LiteralParts

/-! A rendered literal denotes its value: it is read as one expression, and that expression
has the value. -/
namespace TunnelOperator.Injection
open CelText

section Aggregates
variable {isPrint : Char → Bool} {toksOf : Decoded → List Token} {exprOf : Decoded → Expr}

theorem reads_symbol (plain : isSpace c = false ∧ c ≠ '/' ∧ isWord c = false ∧
    isQuote c = false ∧ c ≠ '.')
    (found : ∀ rest, symbol (c :: rest) = some (s, rest)) (reads : Reads cs toks rest) :
    Reads (c :: cs) (.sym s :: toks) rest :=
  .token plain.1 plain.2.1 (token_symbol plain.2.2 (found cs)) (Nat.le_refl _) reads

theorem denotes_arr {items : List Decoded}
    (each : ∀ v ∈ items, Denotes (celLiteral isPrint v).toList (toksOf v) (exprOf v) v.json) :
    Denotes (celLiteral isPrint (.arr items)).toList
      (.sym .lbracket :: ([Token.sym .comma].intercalate
        (items.map fun v => dynTokens (toksOf v)) ++ [.sym .rbracket]))
      (.list (items.map fun v => .call "dyn" [exprOf v])) (Decoded.arr items).json where
  lexes {rest} _ := by
    have text : (celLiteral isPrint (.arr items)).toList ++ rest = '[' ::
        ([',', ' '].intercalate (items.map fun v => "dyn(".toList ++
          (celLiteral isPrint v).toList ++ [')']) ++
          ']' :: rest) := by
      simp [celLiteral, celItems_eq, Function.comp_def]
    have inner := reads_commas
      (items.map fun v => ("dyn(".toList ++ (celLiteral isPrint v).toList ++
        [')'], dynTokens (toksOf v)))
      (by
        intro part member rest
        obtain ⟨v, among, rfl⟩ := List.mem_map.mp member
        exact reads_dyn (each v among) rest) (']' :: rest)
    have close : Reads (']' :: rest) [.sym .rbracket] rest :=
      reads_symbol (by decide) (fun _ => rfl) .done
    rw [List.map_map, List.map_map] at inner
    rw [text]
    exact reads_symbol (by decide) (fun _ => rfl) (inner.append close)
  nonempty := by simp
  opens := by simp
  parses {depth rest} enough closes := by
    simp only [List.length_cons, List.length_append, List.length_nil] at enough
    obtain ⟨depth, rfl⟩ := Nat.exists_eq_add_of_le' (show 1 ≤ depth by omega)
    have items_read : ∀ part ∈ items.map fun v => (dynTokens (toksOf v), Expr.call "dyn" [exprOf v]),
        ItemReads (expression depth) .rbracket part := by
      intro part member
      obtain ⟨v, among, rfl⟩ := List.mem_map.mp member
      have short := length_le_intercalate
        (List.mem_map_of_mem (f := fun v => dynTokens (toksOf v)) among) [Token.sym .comma]
      exact ⟨by simp [dynTokens], by simp [dynTokens], fun later => expression_dyn (each v among) (by omega) later⟩
    refine expression_of_primary closes (by simp) ?_
    have read := primary_list items_read rest
    rw [List.map_map, List.map_map] at read
    simpa [Function.comp_def] using read
  valued := by
    have all := evalAll_dyn (items.map fun v => (exprOf v, v.json)) (by
      intro item member
      obtain ⟨v, among, rfl⟩ := List.mem_map.mp member
      exact (each v among).valued)
    rw [List.map_map, List.map_map] at all
    simp only [Expr.eval, Decoded.json, jsonItems_eq]
    exact congrArg (Option.map Json.arr) all
  wrapped := by
    have all := Wrapped.list (items.map exprOf) (by
      intro e member
      obtain ⟨v, among, rfl⟩ := List.mem_map.mp member
      exact (each v among).wrapped)
    rwa [List.map_map] at all

/-- A map, its members in the given order. -/
theorem denotes_map {members : List (String × Decoded)} (distinct : (members.map (·.1)).Nodup)
    (each : ∀ m ∈ members, Denotes (celLiteral isPrint m.2).toList (toksOf m.2)
      (exprOf m.2) m.2.json) :
    Denotes ("\x7b" ++ ", ".intercalate (members.map fun m =>
        Strconv.quoteWith isPrint m.1 ++ ": dyn(" ++ celLiteral isPrint m.2 ++ ")") ++
          "\x7d").toList
      (.sym .lbrace :: ([Token.sym .comma].intercalate
        (members.map fun m => entryTokens m.1 (toksOf m.2)) ++
        [.sym .rbrace]))
      (.map (members.map fun m => (.str m.1, .call "dyn" [exprOf m.2])))
      (.object (members.map fun m => (m.1, m.2.json))) where
  lexes {rest} _ := by
    have text : ("\x7b" ++ ", ".intercalate (members.map fun m =>
        Strconv.quoteWith isPrint m.1 ++ ": dyn(" ++ celLiteral isPrint m.2 ++ ")") ++
          "\x7d").toList ++ rest =
        '\x7b' :: ([',', ' '].intercalate
          (members.map fun m => (Strconv.quoteWith isPrint m.1).toList ++
          ": dyn(".toList ++ (celLiteral isPrint m.2).toList ++ [')']) ++ '\x7d' :: rest) := by
      simp [Function.comp_def]
    have inner := reads_commas
      (members.map fun m => ((Strconv.quoteWith isPrint m.1).toList ++
          ": dyn(".toList ++ (celLiteral isPrint m.2).toList ++
            [')'], entryTokens m.1 (toksOf m.2)))
      (by
        intro part member rest
        obtain ⟨m, among, rfl⟩ := List.mem_map.mp member
        exact reads_entry isPrint m.1 (each m among) rest) ('\x7d' :: rest)
    have close : Reads ('\x7d' :: rest) [.sym .rbrace] rest :=
      reads_symbol (by decide) (fun _ => rfl) .done
    rw [List.map_map, List.map_map] at inner
    rw [text]
    exact reads_symbol (by decide) (fun _ => rfl) (inner.append close)
  nonempty := by simp
  opens := by simp
  parses {depth rest} enough closes := by
    simp only [List.length_cons, List.length_append, List.length_nil] at enough
    obtain ⟨depth, rfl⟩ := Nat.exists_eq_add_of_le' (show 1 ≤ depth by omega)
    have entries_read : ∀ part ∈ members.map fun m =>
        (entryTokens m.1 (toksOf m.2), Expr.str m.1, Expr.call "dyn" [exprOf m.2]),
        ItemReads (entry (expression depth)) .rbrace part := by
      intro part member
      obtain ⟨m, among, rfl⟩ := List.mem_map.mp member
      have short := length_le_intercalate
        (List.mem_map_of_mem (f := fun m => entryTokens m.1 (toksOf m.2)) among) [Token.sym .comma]
      exact ⟨by simp [entryTokens], by simp [entryTokens], fun later => entry_dyn (each m among) (by omega) later⟩
    refine expression_of_primary closes (by simp) ?_
    have read := primary_map entries_read rest
    rw [List.map_map, List.map_map] at read
    simpa [Function.comp_def] using read
  valued := by
    have all := evalEntries_dyn (members.map fun m => (m.1, exprOf m.2, m.2.json)) (by
      intro item member
      obtain ⟨m, among, rfl⟩ := List.mem_map.mp member
      exact (each m among).valued)
    rw [List.map_map, List.map_map] at all
    have keys : ((members.map fun m => (m.1, m.2.json)).map (·.1)).Nodup := by
      rw [List.map_map]
      exact distinct
    rw [Expr.eval, show evalEntries
      (members.map fun m => (Expr.str m.1, Expr.call "dyn" [exprOf m.2])) = _ from all]
    exact if_pos keys
  wrapped := by
    have all := Wrapped.map (members.map fun m => (m.1, exprOf m.2)) (by
      intro e member
      obtain ⟨m, among, rfl⟩ := List.mem_map.mp member
      exact (each m among).wrapped)
    rwa [List.map_map] at all

theorem celLiteral_denotes (isPrint : Char → Bool) {v : Decoded} (valid : v.Valid) :
    ∃ toks e, Denotes (celLiteral isPrint v).toList toks e v.json := by
  induction valid with
  | str s => exact ⟨_, _, denotes_str isPrint s⟩
  | bool b =>
    refine ⟨[.bool b], .bool b, ?_⟩
    rw [celLiteral]
    exact denotes_bool b
  | num n small =>
    rw [celLiteral]
    exact denotes_num n small
  | arr items _ ih =>
    have : Nonempty Expr := ⟨.null⟩
    choose! toksOf exprOf each using ih
    exact ⟨_, _, denotes_arr each⟩
  | obj members distinct _ ih =>
    have : Nonempty Expr := ⟨.null⟩
    have perm : (sortedMembers members).Perm members := List.perm_insertionSort _ members
    have each : ∀ v ∈ members.map (·.2), ∃ toks e,
        Denotes (celLiteral isPrint v).toList toks e v.json := by
      intro v member
      obtain ⟨m, among, rfl⟩ := List.mem_map.mp member
      exact ih m among
    choose! toksOf exprOf each using each
    have sorted : ((sortedMembers members).map (·.1)).Nodup := (perm.map _).nodup_iff.mpr distinct
    have denotes := denotes_map sorted fun m member => each m.2
      (List.mem_map_of_mem (perm.mem_iff.mp member))
    have same : Json.object ((sortedMembers members).map fun m => (m.1, m.2.json)) =
        (Decoded.obj members).json := by
      rw [Decoded.json, jsonMembers_eq]
      refine Json.object_perm (perm.map _) ?_
      rw [List.map_map]
      exact sorted
    rw [← celLiteral_obj, same] at denotes
    exact ⟨_, _, denotes⟩

end Aggregates

theorem Denotes.parse {text : String} (denotes : Denotes text.toList toks e value) :
    parse text = some e := by
  have read := denotes.lexes ends_nil
  rw [List.append_nil] at read
  have parsed := denotes.parses (Nat.le_succ toks.length) closes_nil
  rw [List.append_nil] at parsed
  simp only [CelText.parse, read.lex, parsed, bind, Option.bind, if_true]

/-- The literal inside dyn(…), as the policy's variables have it. -/
theorem Denotes.parse_dyn {text : String} (denotes : Denotes text.toList toks e value) :
    CelText.parse ("dyn(" ++ text ++ ")") = some (.call "dyn" [e]) := by
  have read := reads_dyn denotes []
  have shape : "dyn(".toList ++ text.toList ++ [')'] ++
    [] = ("dyn(" ++ text ++ ")").toList := by simp
  rw [shape] at read
  have parsed := expression_dyn denotes (Nat.le_succ (dynTokens toks).length) closes_nil
  rw [List.append_nil] at parsed
  simp only [CelText.parse, read.lex, parsed, bind, Option.bind, if_true]

/-- The rendered literal denotes the object, for whatever runes Quote takes as printable. -/
theorem celLiteral_exact (isPrint : Char → Bool) (v : Decoded) (valid : v.Valid) :
    (∃ e, parse (celLiteral isPrint v) = some e ∧ e.eval = some v.json ∧ Wrapped e ∧
      parse ("dyn(" ++ celLiteral isPrint v ++ ")") = some (.call "dyn" [e])) ∧
    (∀ s rest, Ends rest → token ((Strconv.quoteWith isPrint s).toList ++ rest) = some
      (.str s, rest)) ∧
    ∀ w : Decoded, w.Valid → celLiteral isPrint w = celLiteral isPrint v → w.json = v.json := by
  obtain ⟨toks, e, denotes⟩ := celLiteral_denotes isPrint valid
  refine ⟨⟨e, denotes.parse, denotes.valued, denotes.wrapped, denotes.parse_dyn⟩,
    fun s rest => token_quote isPrint s, ?_⟩
  intro w other same
  obtain ⟨toks', e', denotes'⟩ := celLiteral_denotes isPrint other
  have parsed := denotes'.parse
  rw [same, denotes.parse] at parsed
  obtain rfl := Option.some.inj parsed
  exact Option.some.inj (denotes'.valued.symm.trans denotes.valued)

/-- An image name that tries to end its string. -/
def hostileImage : Decoded :=
  .obj [("image", .str "x\"), dyn(true)\n"), ("ports", .arr [.num (-1), .bool false, .obj []])]

theorem hostileImage_denoted : ∃ e, parse (celLiteral (fun _ => true) hostileImage) = some e ∧
    e.eval = some hostileImage.json := by
  have valid : hostileImage.Valid := by
    refine .obj _ (by decide) ?_
    simp only [List.mem_cons, List.not_mem_nil, or_false, forall_eq_or_imp, forall_eq]
    refine ⟨.str _, .arr _ ?_⟩
    simp only [List.mem_cons, List.not_mem_nil, or_false, forall_eq_or_imp, forall_eq]
    exact ⟨.num _ (by decide), .bool _, .obj _ (by decide) (by simp)⟩
  obtain ⟨⟨e, parsed, valued, -⟩, -⟩ := celLiteral_exact (fun _ => true) hostileImage valid
  exact ⟨e, parsed, valued⟩

end TunnelOperator.Injection
