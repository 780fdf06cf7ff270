import Mathlib.Data.List.Basic
import Mathlib.Logic.Function.Basic

/-! JSON values and the add operation of JSON Patch (RFC 6902). An object is a function of
its member names, so that the order of members does not matter. -/
namespace TunnelOperator

inductive Json where
  | null
  | bool (value : Bool)
  | int (value : Int)
  | str (value : String)
  | arr (items : List Json)
  | obj (member : String → Option Json)

namespace Json

def object (members : List (String × Json)) : Json := .obj fun key => members.lookup key

/-- The reference tokens of a JSON Pointer (RFC 6901) as characters, with the empty one
before the first slash. -/
def splitTokens : List Char → List (List Char)
  | [] => [[]]
  | '/' :: rest => [] :: splitTokens rest
  | c :: rest =>
    match splitTokens rest with
    | token :: tokens => (c :: token) :: tokens
    | [] => [[c]]

def unescape : List Char → List Char
  | '~' :: '1' :: rest => '/' :: unescape rest
  | '~' :: '0' :: rest => '~' :: unescape rest
  | c :: rest => c :: unescape rest
  | [] => []

def pointer (path : String) : Option (List String) :=
  match splitTokens path.toList with
  | [] :: tokens => some (tokens.map fun token => String.ofList (unescape token))
  | _ => none

def digit? (c : Char) : Option Nat := if c.isDigit then some (c.toNat - '0'.toNat) else none

/-- An array index: digits without a leading zero. -/
def index? (token : String) : Option Nat :=
  match token.toList with
  | ['0'] => some 0
  | '0' :: _ => none
  | [] => none
  | digits => (digits.mapM digit?).map (List.foldl (fun n digit => 10 * n + digit) 0)

/-- Adding at the end of a path: a member is set, an array element inserted, and "-" is the
place after the last element. All that leads there has to exist. -/
def add (value : Json) : List String → Json → Option Json
  | [], _ => some value
  | [token], .obj member => some (.obj (Function.update member token (some value)))
  | [token], .arr items =>
    if token = "-" then some (.arr (items ++ [value]))
    else do
      let i ← index? token
      if i ≤ items.length then some (.arr (items.insertIdx i value)) else none
  | token :: rest, .obj member => do
    let child ← member token
    let child ← add value rest child
    some (.obj (Function.update member token (some child)))
  | token :: rest, .arr items => do
    let i ← index? token
    let child ← items[i]?
    let child ← add value rest child
    some (.arr (items.set i child))
  | _, _ => none

/-- One operation of a patch; of the operations only add is modelled. -/
def patch (target : Json) : Json → Option Json
  | .obj member =>
    match member "op", member "path", member "value" with
    | some (.str "add"), some (.str path), some value => do add value (← pointer path) target
    | _, _, _ => none
  | _ => none

def patchAll (target : Json) (operations : List Json) : Option Json :=
  operations.foldlM patch target

def addition (path : String) (value : Json) : Json :=
  object [("op", .str "add"), ("path", .str path), ("value", value)]

/-- The order of the members of an object does not matter. -/
theorem object_perm {first second : List (String × Json)} (perm : first.Perm second)
    (distinct : (first.map (·.1)).Nodup) : object first = object second := by
  refine congrArg Json.obj (funext fun key => ?_)
  induction perm with
  | nil => rfl
  | cons m _ ih =>
    rw [List.lookup_cons, List.lookup_cons, ih (List.nodup_cons.mp distinct).2]
  | swap m n rest =>
    obtain ⟨k, v⟩ := m
    obtain ⟨l, w⟩ := n
    have apart : l ≠ k := fun same => by simp [same] at distinct
    by_cases here : key = l
    · subst here
      have other : (key == k) = false := beq_false_of_ne apart
      simp [List.lookup_cons, other]
    · have other : (key == l) = false := beq_false_of_ne here
      simp [List.lookup_cons, other]
  | trans one _ ih ih' => exact (ih distinct).trans (ih' ((one.map _).nodup_iff.mp distinct))

theorem patch_addition (path : String) (value target : Json) (found : pointer path = some tokens) :
    patch target (addition path value) = add value tokens target := by
  simp [patch, addition, object, List.lookup_cons, found]

end Json
end TunnelOperator
