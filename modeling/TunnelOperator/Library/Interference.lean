import TunnelOperator.Library.Attempt
import TunnelOperator.Library.Interleaving

/-! What a program achieves while others, which keep to the same rules, move the state
between its calls. -/
namespace TunnelOperator
open Program

/-- What the calls that keep to the rules do to the state, one after another. -/
structure Interference {Call S : Type} {Answer : Call → Type} (env : Environment Call Answer S)
    (allowed : Call → Prop) (meanwhile : S → S → Prop) : Prop where
  refl : ∀ s, meanwhile s s
  trans : ∀ {s t u}, meanwhile s t → meanwhile t u → meanwhile s u
  call : ∀ {s request answer t}, allowed request → env s request answer t → meanwhile s t

namespace Program
variable {Call S : Type} {Answer : Call → Type} {ε ε' α β : Type}

/-- From `s` on the program keeps to the rules, and what it returns satisfies `post` then
and later, whatever the others do meanwhile. -/
def Amid (env : Environment Call Answer S) (allowed : Call → Prop) (meanwhile : S → S → Prop)
    (post : α → S → Prop) :
    Program Call Answer ε α → S → Prop
  | .done value, s => ∀ t, meanwhile s t → post value t
  | .fail _, _ => True
  | .call request next, s => allowed request ∧
    ∀ t answer u, meanwhile s t → env t request answer u →
      (next answer).Amid env allowed meanwhile post u

variable {env : Environment Call Answer S} {allowed : Call → Prop} {meanwhile : S → S → Prop}
  {post : α → S → Prop} {program : Program Call Answer ε α}

theorem Amid.later (interference : Interference env allowed meanwhile)
    (amid : program.Amid env allowed meanwhile post s)
    (moved : meanwhile s t) : program.Amid env allowed meanwhile post t := by
  cases program with
  | done value => exact fun u after => amid u (interference.trans moved after)
  | fail error => trivial
  | call request next => exact
    ⟨amid.1, fun u answer v after => amid.2 u answer v (interference.trans moved after)⟩

theorem Amid.returned (interference : Interference env allowed meanwhile)
    (amid : (.done value : Program Call Answer ε α).Amid env allowed meanwhile post s) :
    post value s :=
  amid s (interference.refl s)

theorem Amid.weaken {post' : α → S → Prop} (amid : program.Amid env allowed meanwhile post s)
    (implies : ∀ value t, post value t → post' value t) :
    program.Amid env allowed meanwhile post' s := by
  induction program generalizing s with
  | done value => exact fun t moved => implies value t (amid t moved)
  | fail error => trivial
  | call request next ih =>
    exact ⟨amid.1, fun t answer u moved answered => ih answer (amid.2 t answer u moved answered)⟩

theorem Amid.bind (interference : Interference env allowed meanwhile)
    {next : α → Program Call Answer ε β}
    {last : β → S → Prop} (first : program.Amid env allowed meanwhile post s)
    (rest : ∀ value t, post value t → (next value).Amid env allowed meanwhile last t) :
    (program >>= next).Amid env allowed meanwhile last s := by
  induction program generalizing s with
  | done value => exact rest value s (first.returned interference)
  | fail error => trivial
  | call request tail ih =>
    exact ⟨first.1, fun t answer u moved answered => ih answer (first.2 t answer u moved answered)⟩

theorem Amid.rethrow (reword : ε → ε') (amid : program.Amid env allowed meanwhile post s) :
    (rethrow reword program).Amid env allowed meanwhile post s := by
  induction program generalizing s with
  | done value => exact amid
  | fail error => trivial
  | call request tail ih =>
    exact ⟨amid.1, fun t answer u moved answered => ih answer (amid.2 t answer u moved answered)⟩

/-- What the others leave alone still holds at the end. -/
theorem Amid.keeping (interference : Interference env allowed meanwhile) {known : S → Prop}
    (amid : program.Amid env allowed meanwhile post s) (now : known s)
    (stays : ∀ {s t}, meanwhile s t → known s → known t) :
    program.Amid env allowed meanwhile (fun value t => post value t ∧ known t) s := by
  induction program generalizing s with
  | done value => exact fun t moved => ⟨amid t moved, stays moved now⟩
  | fail error => trivial
  | call request next ih =>
    refine ⟨amid.1, fun t answer u moved answered => ih answer
      (amid.2 t answer u moved answered) ?_⟩
    exact stays (interference.call amid.1 answered) (stays moved now)

/-- A program that keeps to the rules whatever it is answered. -/
theorem Safe.amid {rules : Call → Prop} (safe : program.Safe (fun _ _ => True) rules fun _ => True)
    (sub : ∀ request, rules request → allowed request) :
    program.Amid env allowed meanwhile (fun _ _ => True) s := by
  induction program generalizing s with
  | done value => exact fun _ _ => trivial
  | fail error => trivial
  | call request next ih =>
    exact ⟨sub _ safe.1, fun t answer u _ _ => ih answer (safe.2 answer trivial)⟩

end Program

namespace Threads
variable {ι S Call : Type} {Answer : Call → Type} {ε α : Type} [DecidableEq ι]
  {env : Environment Call Answer S}
  {allowed : Call → Prop} {meanwhile : S → S → Prop} {text : ι → Program Call Answer ε α}
    {post : ι → α → S → Prop}
  {initial : S} {c : Threads ι S Call Answer ε α}

/-- Parties that keep to the rules whatever the others do have what they were after once
they return, however they are interleaved. -/
theorem Reached.amid (interference : Interference env allowed meanwhile)
    (reached : Reached (fun _ => env) text (fun _ _ => False) initial c)
    (keeps : ∀ i s, (text i).Amid env allowed meanwhile (post i) s)
    {program : Program Call Answer ε α}
    (running : c.running i = some program) :
    program.Amid env allowed meanwhile (post i) c.state := by
  induction reached generalizing i program with
  | initial => contradiction
  | step before step ih =>
    cases step with
    | start j =>
      rcases running_update running with ⟨rfl, new⟩ | old
      · exact Option.some.inj new ▸ keeps _ _
      · exact ih old
    | call j ready answered =>
      have calls := ih ready
      rcases running_update running with ⟨rfl, new⟩ | old
      · exact Option.some.inj new ▸ calls.2 _ _ _ (interference.refl _) answered
      · exact (ih old).later interference (interference.call calls.1 answered)
    | stop j =>
      rcases running_update running with ⟨-, new⟩ | old
      · contradiction
      · exact ih old
    | outside moved => contradiction

end Threads
end TunnelOperator
