import TunnelOperator.Library.CelGrammar
import TunnelOperator.Library.Json

/-! The values of CEL expressions that are written out: literals, lists, maps and negated
numbers, under the conversion dyn. Other expressions are left without a value here. -/
namespace TunnelOperator.CelText

mutual

/-- A map has an error for a value when a key is repeated. -/
def Expr.eval : Expr → Option Json
  | .null => some .null
  | .bool b => some (.bool b)
  | .int n => some (.int n)
  | .str s => some (.str s)
  | .list items => (evalAll items).map .arr
  | .map entries =>
    match evalEntries entries with
    | some members => if (members.map (·.1)).Nodup then some (.object members) else none
    | none => none
  | .call fn args =>
    match evalAll args with
    | some [value] => if fn = "dyn" then some value else none
    | _ => none
  | .unary .neg e =>
    match e.eval with
    | some (.int n) => some (.int (-n))
    | _ => none
  | _ => none

def evalAll : List Expr → Option (List Json)
  | [] => some []
  | e :: rest =>
    match e.eval, evalAll rest with
    | some value, some values => some (value :: values)
    | _, _ => none

/-- Of the keys only strings have JSON members. -/
def evalEntries : List (Expr × Expr) → Option (List (String × Json))
  | [] => some []
  | (key, e) :: rest =>
    match key.eval, e.eval, evalEntries rest with
    | some (.str key), some value, some members => some ((key, value) :: members)
    | _, _, _ => none

end

/-- Literals, and aggregates of which every member is converted with dyn. -/
inductive Wrapped : Expr → Prop where
  | bool (b : Bool) : Wrapped (.bool b)
  | int (n : Nat) : Wrapped (.int n)
  | neg (n : Nat) : Wrapped (.unary .neg (.int n))
  | str (s : String) : Wrapped (.str s)
  | list (items : List Expr) :
    (∀ e ∈ items, Wrapped e) → Wrapped (.list (items.map fun e => .call "dyn" [e]))
  | map (members : List (String × Expr)) : (∀ m ∈ members, Wrapped m.2) →
      Wrapped (.map (members.map fun m => (.str m.1, .call "dyn" [m.2])))

theorem eval_dyn (valued : Expr.eval e = some value) :
    Expr.eval (.call "dyn" [e]) = some value := by
  simp [Expr.eval, evalAll, valued]

theorem evalAll_dyn (items : List (Expr × Json))
    (valued : ∀ item ∈ items, Expr.eval item.1 = some item.2) :
    evalAll (items.map fun item => .call "dyn" [item.1]) = some (items.map (·.2)) := by
  induction items with
  | nil => rfl
  | cons item rest ih =>
    obtain ⟨first, later⟩ := List.forall_mem_cons.mp valued
    simp only [List.map_cons, evalAll, eval_dyn first, ih later]

theorem evalEntries_dyn (members : List (String × Expr × Json))
    (valued : ∀ m ∈ members, Expr.eval m.2.1 = some m.2.2) :
    evalEntries (members.map fun m => (.str m.1, .call "dyn" [m.2.1])) =
      some (members.map fun m => (m.1, m.2.2)) := by
  induction members with
  | nil => rfl
  | cons m rest ih =>
    obtain ⟨first, later⟩ := List.forall_mem_cons.mp valued
    have key : Expr.eval (.str m.1) = some (.str m.1) := by rw [Expr.eval]
    simp only [List.map_cons, evalEntries, key, eval_dyn first, ih later]

end TunnelOperator.CelText
