import TunnelOperator.Library.Program
import Mathlib.Logic.Relation

/-! A loop that runs one program again and again over a value that others change, and
that keeps what the program itself stores. A change queues a notification, a notification
raises a flag, and a raised flag starts the next run. The flag holds one signal: raising
it again is no further one. -/
namespace TunnelOperator
open Program

variable {V W Call : Type} {Answer : Call → Type} {ε α : Type}

/-- `start` is what was stored when the run began. -/
inductive LoopPhase (W Call : Type) (Answer : Call → Type) (ε α : Type) where
  | passing (start : W) (events : List (Event Call Answer)) (rest : Program Call Answer ε α)
  | waiting (start : W) (events : List (Event Call Answer)) (outcome : Outcome ε α)

structure WakeLoop (V W Call : Type) (Answer : Call → Type) (ε α : Type) where
  value : V
  stored : W
  queued : Nat
  kick : Bool
  phase : LoopPhase W Call Answer ε α

namespace WakeLoop

inductive Ends : Program Call Answer ε α → Outcome ε α → Prop where
  | done {a : α} : Ends (.done a) (.done a)
  | fail {error : ε} : Ends (.fail error) (.fail error)

/-- A call is answered from the value as it is at the time. A change that no answer tells
need not be notified. A run may also start without a signal, and the loop anew at any
time. -/
inductive Step (env : V → Environment Call Answer W) (text : Program Call Answer ε α)
    (s : WakeLoop V W Call Answer ε α) : WakeLoop V W Call Answer ε α → Prop where
  | change (new : V) : Step env text s { s with value := new, queued := s.queued + 1 }
  | silent (new : V) (unseen : ∀ {w request answer w'}, env s.value w request answer w' →
      env new w request answer w') :
      Step env text s { s with value := new }
  | notify (some : s.queued = n + 1) : Step env text s { s with queued := n, kick := true }
  | call (at_ : s.phase = .passing start events (.call request next))
      (answered : env s.value s.stored request answer w) :
      Step env text s { s with stored := w, phase := .passing start (events ++ [⟨request, answer⟩]) (next answer) }
  | end_ (at_ : s.phase = .passing start events rest) (ends : Ends rest outcome) :
      Step env text s { s with phase := .waiting start events outcome }
  | kicked (at_ : s.phase = .waiting start events outcome) (raised : s.kick = true) :
      Step env text s { s with kick := false, phase := .passing s.stored [] text }
  | tick (at_ : s.phase = .waiting start events outcome) :
      Step env text s { s with phase := .passing s.stored [] text }
  | restart (queued : Nat) (kick : Bool) :
      Step env text s ⟨s.value, s.stored, queued, kick, .passing s.stored [] text⟩

variable {env : V → Environment Call Answer W} {text : Program Call Answer ε α}
  {s s' : WakeLoop V W Call Answer ε α}

/-- The run so far: what was called, what is left of the program, and what is stored. -/
inductive Ran (env : Environment Call Answer W) (text : Program Call Answer ε α) (start : W) :
    List (Event Call Answer) → Program Call Answer ε α → W → Prop where
  | nil : Ran env text start [] text start
  | call (before : Ran env text start events (.call request next) w)
      (answered : env w request answer w') :
      Ran env text start (events ++ [⟨request, answer⟩]) (next answer) w'

theorem Ran.trace {env : Environment Call Answer W} (ran : Ran env text start events rest w)
    (last : Trace env w rest later outcome u) :
    Trace env start text (events ++ later) outcome u := by
  induction ran generalizing later with
  | nil => exact last
  | call before answered ih =>
    rw [List.append_assoc, List.singleton_append]
    exact ih (.call answered last)

theorem Ran.mono {env env' : Environment Call Answer W} (ran : Ran env text start events rest w)
    (sub : ∀ {w request answer w'}, env w request answer w' → env' w request answer w') :
    Ran env' text start events rest w := by
  induction ran with
  | nil => exact .nil
  | call before answered ih => exact .call ih (sub answered)

/-- A signal is on its way. -/
def Raised (s : WakeLoop V W Call Answer ε α) : Prop := s.kick = true ∨ 0 < s.queued

/-- The present run or the last one is a run in which the value was all along what it is
now. -/
def Current (env : V → Environment Call Answer W) (text : Program Call Answer ε α) (v : V) (w : W) :
    LoopPhase W Call Answer ε α → Prop
  | .passing start events rest => Ran (env v) text start events rest w
  | .waiting start events outcome => ∃ rest, Ran (env v) text start events rest w ∧ Ends rest outcome

theorem Step.current (step : Step env text s s') (current : s.Raised ∨ Current env text s.value s.stored s.phase) :
    s'.Raised ∨ Current env text s'.value s'.stored s'.phase := by
  cases step with
  | change new => exact .inl (.inr (Nat.succ_pos _))
  | notify some => exact .inl (.inl rfl)
  | kicked | tick | restart => exact .inr .nil
  | silent new unseen =>
    refine current.imp id fun ran => ?_
    cases phase : s.phase with
    | passing start events rest =>
      rw [phase] at ran
      exact Ran.mono ran unseen
    | waiting start events outcome =>
      rw [phase] at ran
      obtain ⟨rest, ran, ends⟩ := ran
      exact ⟨rest, ran.mono unseen, ends⟩
  | call at_ answered =>
    rw [at_] at current
    exact current.imp id fun ran => Ran.call ran answered
  | end_ at_ ends =>
    rw [at_] at current
    exact current.imp id fun ran => ⟨_, ran, ends⟩

theorem reached_current (run : Relation.ReflTransGen (Step env text) s s')
    (initial : s.phase = .passing s.stored [] text) :
    s'.Raised ∨ Current env text s'.value s'.stored s'.phase := by
  induction run with
  | refl =>
    rw [initial]
    exact .inr .nil
  | tail _ step ih => exact step.current ih

/-- The loop is at rest: it waits, and no signal is on its way. Then its last run is a
run of the program against the present value, and left what is stored. -/
theorem settled (run : Relation.ReflTransGen (Step env text) s s')
    (initial : s.phase = .passing s.stored [] text)
    (waits : s'.phase = .waiting start events outcome) (down : s'.kick = false)
    (empty : s'.queued = 0) :
    Trace (env s'.value) start text events outcome s'.stored ∧ outcome ≠ .cut := by
  have current := reached_current run initial
  rw [waits] at current
  obtain (kick | queued) | ⟨rest, ran, ends⟩ := current
  · exact absurd kick (by simp [down])
  · omega
  · cases ends with
    | done => exact ⟨by simpa using ran.trace .done, by simp⟩
    | fail => exact ⟨by simpa using ran.trace .fail, by simp⟩

/-- The environment in which the value may change before each call. -/
def anyEnv (env : V → Environment Call Answer W) : Environment Call Answer W :=
  fun w request answer w' => ∃ v, env v w request answer w'

/-- A run that got this far, from something stored that satisfies `holds`. -/
def Began (env : V → Environment Call Answer W) (text : Program Call Answer ε α)
    (holds : W → Prop) (w : W) :
    LoopPhase W Call Answer ε α → Prop
  | .passing start events rest => holds start ∧ Ran (anyEnv env) text start events rest w
  | .waiting .. => holds w

/-- What every run keeps, cut off anywhere, holds at all times. -/
theorem always {holds : W → Prop} (run : Relation.ReflTransGen (Step env text) s s')
    (keeps : ∀ {w events outcome w'}, Trace (anyEnv env) w text events outcome w' → holds w → holds w')
    (initial : s.phase = .passing s.stored [] text) (first : holds s.stored) : holds s'.stored := by
  have now : ∀ {s : WakeLoop V W Call Answer ε α}, Began env text holds s.stored s.phase → holds s.stored := by
    intro s began
    cases phase : s.phase with
    | passing start events rest =>
      rw [phase] at began
      exact keeps (by simpa using began.2.trace .cut) began.1
    | waiting start events outcome =>
      rw [phase] at began
      exact began
  suffices began : Began env text holds s'.stored s'.phase from now began
  induction run with
  | refl =>
    rw [initial]
    exact ⟨first, .nil⟩
  | tail _ step ih =>
    cases step with
    | change | silent | notify => exact ih
    | kicked | tick | restart => exact ⟨now ih, .nil⟩
    | call at_ answered =>
      rw [at_] at ih
      exact ⟨ih.1, ih.2.call ⟨_, answered⟩⟩
    | end_ at_ ends =>
      have here := now ih
      exact here

/-- A run during which the value does not change is one of the runs of the loop. -/
theorem run_pass (text : Program Call Answer ε α) {program : Program Call Answer ε α} {v : V}
    (run : Trace (env v) w program later outcome u) (whole : outcome ≠ .cut) (queued : Nat) (kick : Bool) (start : W)
    (events : List (Event Call Answer)) :
    Relation.ReflTransGen (Step env text) ⟨v, w, queued, kick, .passing start events program⟩
      ⟨v, u, queued, kick, .waiting start (events ++ later) outcome⟩ := by
  induction run generalizing events with
  | done =>
    rw [List.append_nil]
    exact .single (.end_ rfl .done)
  | fail =>
    rw [List.append_nil]
    exact .single (.end_ rfl .fail)
  | cut => contradiction
  | @call _ request answer _ _ _ _ _ answered rest ih =>
    have later := ih whole (events ++ [⟨request, answer⟩])
    rw [List.append_assoc, List.singleton_append] at later
    exact .head (.call rfl answered) later

end WakeLoop
end TunnelOperator
