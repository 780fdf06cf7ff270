import TunnelOperator.Library.Json

/-! A fragment of the Common Expression Language over JSON values. An expression without a
value (a missing member, a wrong type) is an error; the logical operators and `exists`
absorb an error of one operand when the other decides. -/
namespace TunnelOperator

inductive Cel where
  | var (name : String)
  | lit (value : Json)
  | select (e : Cel) (field : String)
  /-- The macro has(e.field). -/
  | has (e : Cel) (field : String)
  | item (e : Cel) (i : Nat)
  | size (e : Cel)
  | gt (e : Cel) (n : Int)
  /-- Comparison with a string literal. -/
  | eq (e : Cel) (text : String)
  | not (e : Cel)
  | or (a b : Cel)
  | and (a b : Cel)
  | ite (condition a b : Cel)
  /-- The macros range.exists(x, body) and range.map(x, body). -/
  | exists (range : Cel) (x : String) (body : Cel)
  | map (range : Cel) (x : String) (body : Cel)
  /-- A list of one element. -/
  | single (e : Cel)
  | plus (a b : Cel)
  /-- An object of type JSONPatch. -/
  | jsonPatch (op path : String) (value : Cel)

namespace Cel

abbrev Bindings := List (String × Json)

def logicalNot : Option Json → Option Json
  | some (.bool b) => some (.bool !b)
  | _ => none

def logicalOr : Option Json → Option Json → Option Json
  | some (.bool true), _ => some (.bool true)
  | _, some (.bool true) => some (.bool true)
  | some (.bool false), some (.bool false) => some (.bool false)
  | _, _ => none

def logicalAnd : Option Json → Option Json → Option Json
  | some (.bool false), _ => some (.bool false)
  | _, some (.bool false) => some (.bool false)
  | some (.bool true), some (.bool true) => some (.bool true)
  | _, _ => none

def eval (env : Bindings) : Cel → Option Json
  | .var name => env.lookup name
  | .lit value => some value
  | .select e field =>
    match eval env e with
    | some (.obj member) => member field
    | _ => none
  | .has e field =>
    match eval env e with
    | some (.obj member) => some (.bool (member field).isSome)
    | _ => none
  | .item e i =>
    match eval env e with
    | some (.arr items) => items[i]?
    | _ => none
  | .size e =>
    match eval env e with
    | some (.arr items) => some (.int items.length)
    | _ => none
  | .gt e n =>
    match eval env e with
    | some (.int m) => some (.bool (n < m))
    | _ => none
  | .eq e text =>
    match eval env e with
    | some (.str s) => some (.bool (s = text))
    | some _ => some (.bool false)
    | none => none
  | .not e => logicalNot (eval env e)
  | .or a b => logicalOr (eval env a) (eval env b)
  | .and a b => logicalAnd (eval env a) (eval env b)
  | .ite condition a b =>
    match eval env condition with
    | some (.bool true) => eval env a
    | some (.bool false) => eval env b
    | _ => none
  | .exists range x body =>
    match eval env range with
    | some (.arr items) =>
      items.foldr (fun item rest => logicalOr (eval ((x, item) :: env) body) rest)
        (some (.bool false))
    | _ => none
  | .map range x body =>
    match eval env range with
    | some (.arr items) => (items.mapM fun item => eval ((x, item) :: env) body).map .arr
    | _ => none
  | .single e => (eval env e).map fun value => .arr [value]
  | .plus a b =>
    match eval env a, eval env b with
    | some (.arr first), some (.arr second) => some (.arr (first ++ second))
    | _, _ => none
  | .jsonPatch op path value =>
    (eval env value).map fun value => Json.object
    [("op", .str op), ("path", .str path), ("value", value)]

/-! Rules for the operators, which leave their operands as they are, and for the macros. -/

theorem eval_not : eval env (.not e) = logicalNot (eval env e) := rfl

theorem eval_or : eval env (.or a b) = logicalOr (eval env a) (eval env b) := rfl

theorem eval_ite (decided : eval env condition = some (.bool test)) :
    eval env (.ite condition a b) = if test then eval env a else eval env b := by
  cases test <;> simp [eval, decided]

theorem eval_plus (first : eval env a = some (.arr left))
    (second : eval env b = some (.arr right)) :
    eval env (.plus a b) = some (.arr (left ++ right)) := by
  simp only [eval, first, second]

theorem eval_single (valued : eval env e = some value) :
    eval env (.single e) = some (.arr [value]) := by
  simp only [eval, valued, Option.map_some]

theorem eval_jsonPatch (valued : eval env e = some value) :
    eval env (.jsonPatch "add" path e) = some (.addition path value) := by
  simp only [eval, valued, Option.map_some, Json.addition]

/-- Without errors in its body, `exists` asks whether some element satisfies it. -/
theorem eval_exists {env : Bindings} {range body : Cel} {x : String} {items : List α}
    {json : α → Json} {test : α → Bool} (listed : eval env range = some (.arr (items.map json)))
    (tests : ∀ item ∈ items, eval ((x, json item) :: env) body = some (.bool (test item))) :
    eval env (.exists range x body) = some (.bool (items.any test)) := by
  simp only [eval, listed]
  clear listed
  induction items with
  | nil => rfl
  | cons item rest ih =>
    obtain ⟨first, later⟩ := List.forall_mem_cons.mp tests
    rw [List.map_cons, List.foldr_cons, ih later, first, List.any_cons]
    cases test item <;> cases rest.any test <;> rfl

theorem eval_map {env : Bindings} {range body : Cel} {x : String} {items : List Json}
    {f : Json → Json} (listed : eval env range = some (.arr items))
    (maps : ∀ item ∈ items, eval ((x, item) :: env) body = some (f item)) :
    eval env (.map range x body) = some (.arr (items.map f)) := by
  have mapped : (items.mapM fun item => eval ((x, item) :: env) body) = some (items.map f) := by
    clear listed
    induction items with
    | nil => rfl
    | cons item rest ih =>
      obtain ⟨first, later⟩ := List.forall_mem_cons.mp maps
      simp [List.mapM_cons, first, ih later]
  simp only [eval, listed, mapped, Option.map_some]

end Cel
end TunnelOperator
