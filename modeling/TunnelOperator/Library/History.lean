import TunnelOperator.Library.Program

/-! A system together with its past: every state it has been in, and the party that
brought it there. Run against an environment that keeps the past, a program leaves all
states it went through, not only the last one. -/
namespace TunnelOperator
open Program

inductive History (ι S : Type) where
  | start (state : S)
  | next (past : History ι S) (party : ι) (state : S)

namespace History
variable {ι S Call : Type} {Answer : Call → Type} {ε α : Type}

def now : History ι S → S
  | .start state => state
  | .next _ _ state => state

/-- It has held at every point so far. -/
def Throughout (holds : History ι S → Prop) : History ι S → Prop
  | .start state => holds (.start state)
  | .next past party state => past.Throughout holds ∧ holds (.next past party state)

/-- Some state so far was like that. -/
def Once (holds : S → Prop) : History ι S → Prop
  | .start state => holds state
  | .next past _ state => past.Once holds ∨ holds state

theorem Throughout.mono {holds holds' : History ι S → Prop} {h : History ι S}
    (throughout : h.Throughout holds)
    (implies : ∀ h, holds h → holds' h) : h.Throughout holds' := by
  induction h with
  | start state => exact implies _ throughout
  | next past party state ih => exact ⟨ih throughout.1, implies _ throughout.2⟩

theorem Throughout.last {holds : History ι S → Prop} {h : History ι S}
    (throughout : h.Throughout holds) :
    holds h := by
  cases h with
  | start state => exact throughout
  | next past party state => exact throughout.2

instance decidableThroughout (holds : History ι S → Prop) [DecidablePred holds] :
    (h : History ι S) → Decidable (h.Throughout holds)
  | .start state => inferInstanceAs (Decidable (holds (.start state)))
  | .next past party state =>
    have := decidableThroughout holds past
    inferInstanceAs (Decidable (past.Throughout holds ∧ holds (.next past party state)))

/-- A state that once was is one of those in which something else always held. -/
theorem Once.meets {once : S → Prop} {h : History ι S} (was : h.Once once) (always : S → Prop)
    (throughout : h.Throughout fun k => always k.now) : ∃ state, once state ∧ always state := by
  induction h with
  | start state => exact ⟨state, was, throughout⟩
  | next past party state ih =>
    rcases was with before | here
    · exact ih before throughout.1
    · exact ⟨state, here, throughout.2⟩

/-- The environment with its past, as one party finds it. -/
def recording (env : Environment Call Answer S) (party : ι) :
    Environment Call Answer (History ι S) :=
  fun h request answer h' => ∃ t, env h.now request answer t ∧ h' = .next h party t

section Recording
variable {env : Environment Call Answer S} {party : ι} {h h' : History ι S}

/-- Without its past a recorded run is a run. -/
theorem forget {program : Program Call Answer ε α}
    (run : Trace (recording env party) h program events outcome h') :
    Trace env h.now program events outcome h'.now := by
  induction run with
  | done => exact .done
  | fail => exact .fail
  | cut => exact .cut
  | call answered _ ih =>
    obtain ⟨t, answers, rfl⟩ := answered
    exact .call answers ih

/-- What no call changes holds throughout a recorded run. -/
theorem throughout_run {holds : S → Prop} {program : Program Call Answer ε α}
    (run : Trace (recording env party) h program events outcome h')
    (step : ∀ {s request answer t}, env s request answer t → holds s → holds t)
    (before : h.Throughout fun k => holds k.now) : h'.Throughout fun k => holds k.now := by
  induction run with
  | done | fail | cut => exact before
  | call answered _ ih =>
    obtain ⟨t, answers, rfl⟩ := answered
    exact ih ⟨before, step answers before.last⟩

theorem once_run {holds : S → Prop} {program : Program Call Answer ε α}
    (run : Trace (recording env party) h program events outcome h') (once : h.Once holds) :
    h'.Once holds := by
  induction run with
  | done | fail | cut => exact once
  | call answered _ ih =>
    obtain ⟨t, -, rfl⟩ := answered
    exact ih (.inl once)

end Recording

/-- A handler that keeps the past. -/
def recorded (handler : Handler Call Answer S) (party : ι) : Handler Call Answer (History ι S) :=
    fun h request =>
  let (answer, t) := handler h.now request
  (answer, .next h party t)

theorem recorded_answers {env : Environment Call Answer S} {handler : Handler Call Answer S}
    (answers : ∀ s request, env s request (handler s request).1 (handler s request).2) (party : ι)
    (h : History ι S) (request : Call) :
    recording env party h request (recorded handler party h request).1
      (recorded handler party h request).2 :=
  ⟨_, answers h.now request, rfl⟩

end History
end TunnelOperator
