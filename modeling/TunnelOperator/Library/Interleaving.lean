import TunnelOperator.Library.Program
import Mathlib.Logic.Function.Basic

/-! Programs that run side by side over one state. Each call is one step; between two calls
of one program the others and the outside may do anything. -/
namespace TunnelOperator
open Program

/-- A state and, for each party, what is left of the program it runs. -/
structure Threads (ι S Call : Type) (Answer : Call → Type) (ε α : Type) where
  state : S
  running : ι → Option (Program Call Answer ε α)

namespace Threads
variable {ι S Call : Type} {Answer : Call → Type} {ε α : Type} [DecidableEq ι]

/-- A party may start its program at any time, also anew, and stop between two calls. -/
inductive Step (env : ι → Environment Call Answer S) (text : ι → Program Call Answer ε α)
    (outside : S → S → Prop)
    (c : Threads ι S Call Answer ε α) : Threads ι S Call Answer ε α → Prop where
  | start (i : ι) : Step env text outside c
    { c with running := Function.update c.running i (some (text i)) }
  | call (i : ι) (ready : c.running i = some (.call request next))
      (answered : env i c.state request answer t) :
      Step env text outside c ⟨t, Function.update c.running i (some (next answer))⟩
  | stop (i : ι) : Step env text outside c { c with running := Function.update c.running i none }
  | outside (moved : outside c.state t) : Step env text outside c { c with state := t }

inductive Reached (env : ι → Environment Call Answer S) (text : ι → Program Call Answer ε α)
    (outside : S → S → Prop) (initial : S) : Threads ι S Call Answer ε α → Prop where
  | initial : Reached env text outside initial ⟨initial, fun _ => none⟩
  | step (before : Reached env text outside initial c) (step : Step env text outside c c') :
      Reached env text outside initial c'

/-- What a group of parties needs to keep an invariant: a call that is allowed keeps it and
is answered as expected, and what was expected once stays so in all later states. -/
structure Discipline (env : ι → Environment Call Answer S) (outside : S → S → Prop)
    (holds : S → Prop)
    (later : S → S → Prop) (expected : ι → S → (request : Call) → Answer request → Prop)
    (allowed : ι → S → Call → Prop) : Prop where
  refl : ∀ s, later s s
  trans : ∀ {s t u}, later s t → later t u → later s u
  call : ∀ {i s request answer t}, holds s → allowed i s request → env i s request answer t →
    holds t ∧ later s t ∧ expected i t request answer
  outside : ∀ {s t}, holds s → outside s t → holds t ∧ later s t
  stays : ∀ {i s t request answer}, later s t → expected i s request answer →
    expected i t request answer

variable {env : ι → Environment Call Answer S} {text : ι → Program Call Answer ε α}
  {outside : S → S → Prop}
  {holds : S → Prop} {later : S → S → Prop}
    {expected : ι → S → (request : Call) → Answer request → Prop}
  {allowed : ι → S → Call → Prop} {initial : S} {c : Threads ι S Call Answer ε α}

/-- What a party runs after an update is what it was given, or what it ran before. -/
theorem running_update {β : Type} {running : ι → Option β} {new : Option β} {program : β}
    (found : Function.update running i new j = some program) :
    (j = i ∧ new = some program) ∨ running j = some program := by
  rcases eq_or_ne j i with rfl | other
  · rw [Function.update_self] at found
    exact .inl ⟨rfl, found⟩
  · rw [Function.update_of_ne other] at found
    exact .inr found

/-- Programs that are safe against all states keep the invariant however they are
interleaved. -/
theorem Reached.keeps (reached : Reached env text outside initial c)
    (discipline : Discipline env outside holds later expected allowed)
    (safe : ∀ i s, (text i).Safe (expected i s) (allowed i s) fun _ => True)
    (start : holds initial) :
    holds c.state := by
  -- What is left of a program is safe against the present state and all later ones.
  suffices both : holds c.state ∧ ∀ i program, c.running i = some program → ∀ u, later c.state u →
      program.Safe (expected i u) (allowed i u) fun _ => True from both.1
  induction reached with
  | initial => exact ⟨start, fun i program none => absurd none (by simp)⟩
  | @step c c' before step ih =>
    obtain ⟨now, left⟩ := ih
    cases step with
    | start i =>
      refine ⟨now, fun j program found u after => ?_⟩
      rcases running_update found with ⟨rfl, new⟩ | old
      · exact Option.some.inj new ▸ safe j u
      · exact left j program old u after
    | @call request next answer t i ready answered =>
      have calls := left i _ ready
      obtain ⟨kept, moved, known⟩ := discipline.call now (calls _ (discipline.refl _)).1 answered
      refine ⟨kept, fun j program found u after => ?_⟩
      rcases running_update found with ⟨rfl, new⟩ | old
      · exact Option.some.inj new ▸ (calls u (discipline.trans moved after)).2 _
          (discipline.stays after known)
      · exact left j program old u (discipline.trans moved after)
    | stop i =>
      refine ⟨now, fun j program found u after => ?_⟩
      rcases running_update found with ⟨-, new⟩ | old
      · contradiction
      · exact left j program old u after
    | outside moves =>
      obtain ⟨kept, moved⟩ := discipline.outside now moves
      exact ⟨kept, fun j program found u after => left j program found u
        (discipline.trans moved after)⟩

theorem Reached.resume {program : Program Call Answer ε α}
    (run : Trace (env i) s program events outcome t)
    (reached : Reached env text outside initial c) (here : c.state = s)
    (ready : c.running i = some program) :
    ∃ c', Reached env text outside initial c' ∧ c'.state = t := by
  induction run generalizing c with
  | done | fail | cut => exact ⟨c, reached, here⟩
  | call answered rest ih =>
    subst here
    exact ih (reached.step (.call i ready answered)) rfl (Function.update_self ..)

/-- A party that is left alone comes to its end, and the others stand where they stood. -/
theorem Reached.returns (reached : Reached env text outside initial c)
    {program : Program Call Answer ε α}
    (ready : c.running i = some program)
    (run : Trace (env i) c.state program events (.done value) t) :
    ∃ c', Reached env text outside initial c' ∧ c'.state = t ∧ c'.running i = some (.done value) ∧
      ∀ j, j ≠ i → c'.running j = c.running j := by
  generalize here : c.state = s at run
  generalize ended : Outcome.done value = outcome at run
  induction run generalizing c with
  | done =>
    cases ended
    exact ⟨c, reached, here, ready, fun _ _ => rfl⟩
  | fail | cut => contradiction
  | call answered rest ih =>
    subst here
    obtain ⟨c', reached', last, done, others⟩ :=
      ih (reached.step (.call i ready answered)) (Function.update_self ..) rfl ended
    exact ⟨c', reached', last, done,
      fun j other => (others j other).trans (Function.update_of_ne other ..)⟩

/-- A program that one party runs alone is one of the interleavings. -/
theorem Reached.run (reached : Reached env text outside initial c)
    (run : Trace (env i) c.state (text i) events outcome t) :
    ∃ c', Reached env text outside initial c' ∧ c'.state = t :=
  Reached.resume run (reached.step (.start i)) rfl (Function.update_self ..)

end Threads
end TunnelOperator
