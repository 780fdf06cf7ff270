import Mathlib.Computability.RegularExpressions

/-! Character classes and counted repetition of a regular expression. -/
namespace TunnelOperator.Pattern
open RegularExpression
variable {α : Type}

/-- A class of symbols, as [...] writes it. -/
def oneOf : List α → RegularExpression α
  | [] => 0
  | a :: rest => char a + oneOf rest

def charRange (first last : Char) : List Char :=
  (List.range' first.toNat (last.toNat + 1 - first.toNat)).map Char.ofNat

theorem mem_oneOf {symbols : List α} {word : List α} :
    word ∈ (oneOf symbols).matches' ↔ ∃ a ∈ symbols, word = [a] := by
  induction symbols with
  | nil => simp [oneOf, matches'_zero, Language.notMem_zero]
  | cons a rest ih =>
    rw [oneOf, matches'_add, Language.mem_add, ih, matches'_char]
    simp only [List.mem_cons, exists_eq_or_imp]
    rfl

/-- A class repeated `n` times matches the words of that length over the class. -/
theorem mem_oneOf_pow {symbols : List α} {n : Nat} {word : List α} :
    word ∈ (oneOf symbols ^ n).matches' ↔ word.length = n ∧ ∀ a ∈ word, a ∈ symbols := by
  rw [matches'_pow]
  induction n generalizing word with
  | zero =>
    rw [pow_zero, Language.mem_one, List.length_eq_zero_iff]
    constructor
    · rintro rfl
      exact ⟨rfl, by simp⟩
    · exact And.left
  | succ n ih =>
    rw [pow_succ', Language.mem_mul]
    constructor
    · rintro ⟨first, inClass, rest, repeated, rfl⟩
      obtain ⟨a, member, rfl⟩ := mem_oneOf.mp inClass
      obtain ⟨length, members⟩ := ih.mp repeated
      exact ⟨by simp [length], by simpa using ⟨member, members⟩⟩
    · rintro ⟨length, members⟩
      cases word with
      | nil => contradiction
      | cons a rest =>
        obtain ⟨member, others⟩ := List.forall_mem_cons.mp members
        exact ⟨[a], mem_oneOf.mpr ⟨a, member, rfl⟩, rest,
          ih.mpr ⟨by simpa using length, others⟩, rfl⟩

end TunnelOperator.Pattern
