import TunnelOperator.Library.Program

/-! Two programs that issue the same calls as long as their answers are paired: a relation
between them with a rule for each construct, and what it says about two runs. -/
namespace TunnelOperator.Program
variable {Call : Type} {Answer : Call → Type} {ε α β γ δ S : Type}

inductive Lockstep (paired : (request : Call) → Answer request → Answer request → Prop)
    (rel : α → β → Prop) :
    Program Call Answer ε α → Program Call Answer ε β → Prop where
  | done (related : rel value value') : Lockstep paired rel (.done value) (.done value')
  | fail {error : ε} : Lockstep paired rel (.fail error) (.fail error)
  | call (steps : ∀ answer answer', paired request answer answer' →
      Lockstep paired rel (next answer) (next' answer')) :
      Lockstep paired rel (.call request next) (.call request next')

section Rules
variable {paired : (request : Call) → Answer request → Answer request → Prop} {rel : α → β → Prop}
  {rel' : γ → δ → Prop} {first : Program Call Answer ε α} {second : Program Call Answer ε β}

theorem Lockstep.bind {next : α → Program Call Answer ε γ} {next' : β → Program Call Answer ε δ}
    (steps : Lockstep paired rel first second)
    (rest : ∀ value value', rel value value' → Lockstep paired rel' (next value) (next' value')) :
    Lockstep paired rel' (first >>= next) (second >>= next') := by
  induction steps with
  | done related => exact rest _ _ related
  | fail => exact .fail
  | call _ ih => exact .call fun answer answer' pair => ih answer answer' pair

/-- A program beside itself, where all its calls get the same answer twice. -/
theorem lockstep_self {program : Program Call Answer ε α} {allowed : Call → Prop} {post : α → Prop}
    (safe : program.Safe (fun _ _ => True) allowed post)
    (same : ∀ {request answer answer'}, allowed request → paired request answer answer' →
      answer = answer') :
    Lockstep paired (fun value value' => value = value' ∧ post value) program program := by
  induction program with
  | done value => exact .done ⟨rfl, safe⟩
  | fail error => exact .fail
  | call request next ih =>
    refine .call fun answer answer' pair => ?_
    obtain rfl := same safe.1 pair
    exact ih answer (safe.2 answer trivial)

end Rules

/-- Both runs ended in the same way. -/
def Outcome.Matches (rel : α → β → Prop) : Outcome ε α → Outcome ε β → Prop
  | .done value, .done value' => rel value value'
  | .fail error, .fail error' => error = error'
  | .cut, .cut => True
  | _, _ => False

theorem Outcome.Matches.fail_iff {rel : α → β → Prop} {one : Outcome ε α} {two : Outcome ε β}
    (same : one.Matches rel two) (error : ε) : one = .fail error ↔ two = .fail error := by
  cases one <;> cases two <;> simp_all [Outcome.Matches]

theorem Outcome.Matches.done {value : α} {rel : α → β → Prop} {one : Outcome ε α}
    {two : Outcome ε β}
    (same : one.Matches rel two) (ended : one = .done value) :
    ∃ value', two = .done value' ∧ rel value value' := by
  subst ended
  cases two with
  | done value' => exact ⟨value', rfl, same⟩
  | fail | cut => exact same.elim

/-- Runs against two handlers that differ in their answers only, and there as paired. -/
theorem Lockstep.play {paired : (request : Call) → Answer request → Answer request → Prop}
    {rel : α → β → Prop}
    {first : Program Call Answer ε α} {second : Program Call Answer ε β}
    (steps : Lockstep paired rel first second)
    {one two : Handler Call Answer S}
    (answers : ∀ s request, paired request (one s request).1 (two s request).1)
    (states : ∀ s request, (one s request).2 = (two s request).2) (s : S) :
    (first.play one s).1.map Sigma.fst = (second.play two s).1.map Sigma.fst ∧
      (first.play one s).2.1.Matches rel (second.play two s).2.1 := by
  induction steps generalizing s with
  | done related => exact ⟨rfl, related⟩
  | fail => exact ⟨rfl, rfl⟩
  | @call request next next' _ ih =>
    obtain ⟨calls, ended⟩ := ih _ _ (answers s request) (one s request).2
    simp only [Program.play, List.map_cons]
    rw [← states s request]
    exact ⟨congrArg _ calls, ended⟩

end TunnelOperator.Program
