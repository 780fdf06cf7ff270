import Mathlib.Data.List.Sort
import TunnelOperator.Library.CelValue
import TunnelOperator.Standard.QuotedCel

/-! internal/controller/injection.go: celLiteral, which writes a decoded JSON value as a CEL
literal. -/
namespace TunnelOperator.Injection
open CelText

/-- What json.Unmarshal decodes into any. The members of a map come in any order; a number
that is whole is the number itself. -/
inductive Decoded where
  | obj (members : List (String × Decoded))
  | arr (items : List Decoded)
  | str (value : String)
  | num (value : Int)
  | bool (value : Bool)

/-- A map has each key once, and a float64 holds whole numbers up to 2^53. -/
inductive Decoded.Valid : Decoded → Prop where
  | obj (members : List (String × Decoded)) :
      (members.map (·.1)).Nodup → (∀ m ∈ members, Valid m.2) →
      Valid (.obj members)
  | arr (items : List Decoded) : (∀ v ∈ items, Valid v) → Valid (.arr items)
  | str (s : String) : Valid (.str s)
  | num (n : Int) : n.natAbs ≤ 2 ^ 53 → Valid (.num n)
  | bool (b : Bool) : Valid (.bool b)

mutual

/-- The value itself, for which the order of members does not matter. -/
def Decoded.json : Decoded → Json
  | .obj members => .object (jsonMembers members)
  | .arr items => .arr (jsonItems items)
  | .str s => .str s
  | .num n => .int n
  | .bool b => .bool b

def jsonMembers : List (String × Decoded) → List (String × Json)
  | [] => []
  | (k, v) :: rest => (k, v.json) :: jsonMembers rest

def jsonItems : List Decoded → List Json
  | [] => []
  | v :: rest => v.json :: jsonItems rest

end

/-- strconv.FormatFloat(v, 'f', -1, 64) of a whole number. -/
def formatWhole : Int → String
  | .ofNat n => Nat.repr n
  | .negSucc n => "-" ++ Nat.repr (n + 1)

section Rendering
variable (isPrint : Char → Bool)

mutual

/-- The members of a map are rendered and then put in the order of their keys. -/
def celLiteral : Decoded → String
  | .obj members =>
    let sorted := (celMembers members).insertionSort fun a b => a.1 ≤ b.1
    "\x7b" ++ ", ".intercalate (sorted.map fun (k, text) =>
      Strconv.quoteWith isPrint k ++ ": dyn(" ++ text ++ ")") ++ "\x7d"
  | .arr items => "[" ++ ", ".intercalate
    ((celItems items).map fun text => "dyn(" ++ text ++ ")") ++ "]"
  | .str s => Strconv.quoteWith isPrint s
  | .num n => formatWhole n
  | .bool b => if b then "true" else "false"

def celMembers : List (String × Decoded) → List (String × String)
  | [] => []
  | (k, v) :: rest => (k, celLiteral v) :: celMembers rest

def celItems : List Decoded → List String
  | [] => []
  | v :: rest => celLiteral v :: celItems rest

end

theorem celMembers_eq (members : List (String × Decoded)) :
    celMembers isPrint members = members.map fun m => (m.1, celLiteral isPrint m.2) := by
  induction members with
  | nil => rfl
  | cons m rest ih => rw [celMembers, ih, List.map_cons]

theorem celItems_eq (items : List Decoded) :
    celItems isPrint items = items.map (celLiteral isPrint) := by
  induction items with
  | nil => rfl
  | cons v rest ih => rw [celItems, ih, List.map_cons]

theorem jsonMembers_eq (members : List (String × Decoded)) :
    jsonMembers members = members.map fun m => (m.1, m.2.json) := by
  induction members with
  | nil => rfl
  | cons m rest ih => rw [jsonMembers, ih, List.map_cons]

theorem jsonItems_eq (items : List Decoded) : jsonItems items = items.map Decoded.json := by
  induction items with
  | nil => rfl
  | cons v rest ih => rw [jsonItems, ih, List.map_cons]

/-- The members of a map in the order of their keys. -/
def sortedMembers (members : List (String × Decoded)) : List (String × Decoded) :=
  members.insertionSort fun a b => a.1 ≤ b.1

theorem celLiteral_obj (members : List (String × Decoded)) : celLiteral isPrint (.obj members) =
    "\x7b" ++ ", ".intercalate ((sortedMembers members).map fun m =>
      Strconv.quoteWith isPrint m.1 ++ ": dyn(" ++ celLiteral isPrint m.2 ++ ")") ++ "\x7d" := by
  have sorted : (celMembers isPrint members).insertionSort (fun a b => a.1 ≤ b.1) =
      (sortedMembers members).map fun m => (m.1, celLiteral isPrint m.2) := by
    rw [celMembers_eq, sortedMembers]
    symm
    apply List.map_insertionSort
    intros
    rfl
  rw [celLiteral, sorted, List.map_map]
  rfl

end Rendering
end TunnelOperator.Injection
