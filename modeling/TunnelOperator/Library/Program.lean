import Mathlib.Data.List.Basic

/-! Finite programs over answered calls. A program is a tree: it ends with a
value or an error, or issues a call and continues with whatever answer arrives.
The environment that answers is a relation on its own state, so one program text
serves fresh reads, stale caches and failing writes alike. -/
namespace TunnelOperator

inductive Program (Call : Type) (Answer : Call → Type) (ε α : Type) where
  | done (value : α)
  | fail (error : ε)
  | call (request : Call) (next : Answer request → Program Call Answer ε α)

namespace Program
variable {Call : Type} {Answer : Call → Type} {ε α β γ S : Type}

def bind : Program Call Answer ε α → (α → Program Call Answer ε β) → Program Call Answer ε β
  | .done value, next => next value
  | .fail error, _ => .fail error
  | .call request rest, next => .call request (fun answer => (rest answer).bind next)

instance : Monad (Program Call Answer ε) where
  pure := .done
  bind := bind

def ask (request : Call) : Program Call Answer ε (Answer request) := .call request .done

@[simp] theorem pure_eq (value : α) : (pure value : Program Call Answer ε α) = .done value := rfl

@[simp] theorem done_bind (value : α) (next : α → Program Call Answer ε β) :
    (Program.done value >>= next) = next value := rfl

@[simp] theorem fail_bind (error : ε) (next : α → Program Call Answer ε β) :
    ((Program.fail error : Program Call Answer ε α) >>= next) = .fail error := rfl

@[simp] theorem ask_bind (request : Call) (next : Answer request → Program Call Answer ε β) :
    (ask request >>= next) = .call request next := rfl

@[simp] theorem call_bind (request : Call) (rest : Answer request → Program Call Answer ε α)
    (next : α → Program Call Answer ε β) :
    (Program.call request rest >>= next) = .call request (fun answer => rest answer >>= next) := rfl

theorem bind_assoc (program : Program Call Answer ε α) (next : α → Program Call Answer ε β)
    (last : β → Program Call Answer ε γ) :
    (program >>= next >>= last) = (program >>= fun value => next value >>= last) := by
  induction program with
  | done value => rfl
  | fail error => rfl
  | call request rest ih =>
    simp only [call_bind]
    exact congrArg (Program.call request) (funext ih)

theorem bind_done (program : Program Call Answer ε α) : (program >>= Program.done) = program := by
  induction program with
  | done value => rfl
  | fail error => rfl
  | call request rest ih => exact congrArg (Program.call request) (funext ih)

/-- A relation between a state, a call, the answer it may get there and the state
the call leaves. -/
abbrev Environment (Call : Type) (Answer : Call → Type) (S : Type) :=
  S → (request : Call) → Answer request → S → Prop

abbrev Event (Call : Type) (Answer : Call → Type) := (request : Call) × Answer request

inductive Outcome (ε α : Type) where
  | done (value : α)
  | fail (error : ε)
  | cut

def Outcome.value : Outcome ε α → Option α
  | .done value => some value
  | _ => none

theorem Outcome.value_eq_some {outcome : Outcome ε α} :
    outcome.value = some a ↔ outcome = .done a := by
  cases outcome <;> simp [Outcome.value]

/-- A trace may end early: `cut` stands for a process that stops between two calls,
so every safety result about traces also covers a crash at any point. -/
inductive Trace (env : Environment Call Answer S) :
    S → Program Call Answer ε α → List (Event Call Answer) → Outcome ε α → S → Prop where
  | done : Trace env s (.done value) [] (.done value) s
  | fail {error : ε} : Trace env s (.fail error) [] (.fail error) s
  | cut : Trace env s program [] .cut s
  | call : env s request answer t → Trace env t (next answer) events outcome u →
      Trace env s (.call request next) (⟨request, answer⟩ :: events) outcome u

section Inversion
variable {env : Environment Call Answer S}

/-! A run that is not cut. -/

theorem Trace.done_inv {value : α}
    (run : Trace env s (.done value : Program Call Answer ε α) events outcome t)
    (whole : outcome ≠ .cut) : outcome = .done value ∧ events = [] ∧ t = s := by
  cases run with
  | done => exact ⟨rfl, rfl, rfl⟩
  | cut => contradiction

theorem Trace.call_cases {request : Call} {next : Answer request → Program Call Answer ε α}
    (run : Trace env s (.call request next) events outcome u) :
    (events = [] ∧ outcome = .cut ∧ u = s) ∨
      ∃ answer t rest, env s request answer t ∧ Trace env t (next answer) rest outcome u ∧
        events = ⟨request, answer⟩ :: rest := by
  cases run with
  | call answered rest => exact .inr ⟨_, _, _, answered, rest, rfl⟩
  | cut => exact .inl ⟨rfl, rfl, rfl⟩

theorem Trace.call_inv {request : Call} {next : Answer request → Program Call Answer ε α}
    (run : Trace env s (.call request next) events outcome u) (whole : outcome ≠ .cut) :
    ∃ answer t rest, env s request answer t ∧ Trace env t (next answer) rest outcome u ∧
      events = ⟨request, answer⟩ :: rest :=
  run.call_cases.resolve_left fun ⟨_, ended, _⟩ => whole ended

theorem Trace.call_returned {request : Call} {next : Answer request → Program Call Answer ε α}
    (run : Trace env s (.call request next) events (.done value) u) :
    ∃ answer t rest, env s request answer t ∧ Trace env t (next answer) rest (.done value) u ∧
      events = ⟨request, answer⟩ :: rest :=
  run.call_inv (by simp)

/-- Every run of a sequence, finished or not, ends inside its first part or runs
that part to its value and continues. -/
theorem Trace.bind_cases {program : Program Call Answer ε α}
    {next : α → Program Call Answer ε β} {outcome : Outcome ε β}
    (run : Trace env s (program >>= next) events outcome u) :
    (Trace env s program events .cut u ∧ outcome = .cut) ∨
    (∃ error, Trace env s program events (.fail error) u ∧ outcome = .fail error) ∨
    ∃ middle t first rest, Trace env s program first (.done middle) t ∧
      Trace env t (next middle) rest outcome u ∧ events = first ++ rest := by
  induction program generalizing s events with
  | done middle => exact .inr (.inr ⟨middle, s, [], events, .done, run, rfl⟩)
  | fail error =>
    cases run with
    | fail => exact .inr (.inl ⟨error, .fail, rfl⟩)
    | cut => exact .inl ⟨.cut, rfl⟩
  | call request rest ih =>
    cases run with
    | cut => exact .inl ⟨.cut, rfl⟩
    | call answered tail =>
      rcases ih _ tail with ⟨head, ended⟩ | ⟨error, head, ended⟩
        | ⟨middle, v, first, last, head, after, rfl⟩
      · exact .inl ⟨.call answered head, ended⟩
      · exact .inr (.inl ⟨error, .call answered head, ended⟩)
      · exact .inr (.inr ⟨middle, v, _ :: first, last, .call answered head, after, rfl⟩)

/-- A whole run of a sequence whose first part never fails runs both parts. -/
theorem Trace.bind_inv {program : Program Call Answer ε α} {next : α → Program Call Answer ε β}
    {outcome : Outcome ε β} (run : Trace env s (program >>= next) events outcome u)
    (whole : outcome ≠ .cut)
    (succeeds : ∀ {events error t}, ¬ Trace env s program events (.fail error) t) :
    ∃ middle t first rest, Trace env s program first (.done middle) t ∧
      Trace env t (next middle) rest outcome u ∧ events = first ++ rest := by
  rcases run.bind_cases with ⟨-, ended⟩ | ⟨error, failed, -⟩ | parts
  · exact absurd ended whole
  · exact absurd failed succeeds
  · exact parts

/-! A run that returns. -/

theorem Trace.returned {value result : α}
    (run : Trace env s (.done value : Program Call Answer ε α) events (.done result) t) :
    result = value ∧ events = [] := by
  cases run
  exact ⟨rfl, rfl⟩

theorem Trace.bind_returned {program : Program Call Answer ε α} {next : α → Program Call Answer ε β}
    (run : Trace env s (program >>= next) events (.done result) u) :
    ∃ middle t first rest, Trace env s program first (.done middle) t ∧
      Trace env t (next middle) rest (.done result) u ∧ events = first ++ rest := by
  rcases run.bind_cases with ⟨-, ended⟩ | ⟨error, -, ended⟩ | parts
  · contradiction
  · contradiction
  · exact parts

/-! Runs of a sequence. -/

theorem Trace.bind {program : Program Call Answer ε α} {next : α → Program Call Answer ε β}
    (first : Trace env s program events (.done middle) t)
    (rest : Trace env t (next middle) later outcome u) :
    Trace env s (program >>= next) (events ++ later) outcome u := by
  induction program generalizing s events with
  | done value => cases first; exact rest
  | fail error => cases first
  | call request tail ih =>
    cases first with
    | call answered head => exact .call answered (ih _ head)

theorem Trace.bind_cut {program : Program Call Answer ε α} {next : α → Program Call Answer ε β}
    (first : Trace env s program events .cut t) : Trace env s (program >>= next) events .cut t := by
  induction program generalizing s events with
  | done value => cases first; exact .cut
  | fail error => cases first; exact .cut
  | call request tail ih =>
    cases first with
    | cut => exact .cut
    | call answered head => exact .call answered (ih _ head)

theorem Trace.bind_fail {program : Program Call Answer ε α}
    {next : α → Program Call Answer ε β} {error : ε}
    (first : Trace env s program events (.fail error) t) :
    Trace env s (program >>= next) events (.fail error) t := by
  induction program generalizing s events with
  | done value => cases first
  | fail error => cases first; exact .fail
  | call request tail ih =>
    cases first with
    | call answered head => exact .call answered (ih _ head)

/-- What holds of every answer of the environment holds of the answers of a run. -/
theorem Trace.answers {expected : (request : Call) → Answer request → Prop}
    {program : Program Call Answer ε α} (run : Trace env s program events outcome t)
    (step : ∀ {s request answer t}, env s request answer t → expected request answer) :
    ∀ event ∈ events, expected event.1 event.2 := by
  induction run with
  | done | fail | cut => simp
  | call answered rest ih => exact List.forall_mem_cons.mpr ⟨step answered, ih⟩

/-- What an answer tells holds at the end of the run, if no later call can undo it. -/
theorem Trace.told {told : S → (request : Call) → Answer request → Prop}
    {program : Program Call Answer ε α} (run : Trace env s program events outcome t)
    (tells : ∀ {s request answer t}, env s request answer t → told t request answer)
    (stays : ∀ {s request answer t other reply}, env s request answer t → told s other reply →
      told t other reply) :
    ∀ event ∈ events, told t event.1 event.2 := by
  have lasts : ∀ {s program events outcome t} {request : Call} {answer : Answer request},
      Trace (ε := ε) (α := α) env s program events outcome t → told s request answer →
        told t request answer := by
    intro s program events outcome t request answer run now
    induction run with
    | done | fail | cut => exact now
    | call answered rest ih => exact ih (stays answered now)
  induction run with
  | done | fail | cut => simp
  | call answered rest ih => exact List.forall_mem_cons.mpr ⟨lasts rest (tells answered), ih⟩

/-- A run is also a run of an environment that answers more freely. -/
theorem Trace.mono {env' : Environment Call Answer S} {program : Program Call Answer ε α}
    (run : Trace env s program events outcome t)
    (freer : ∀ {s request answer t}, env s request answer t → env' s request answer t) :
    Trace env' s program events outcome t := by
  induction run with
  | done => exact .done
  | fail => exact .fail
  | cut => exact .cut
  | call answered _ ih => exact .call (freer answered) ih

/-- What no call of the environment can change, no run changes. -/
theorem Trace.frame {related : S → S → Prop} {program : Program Call Answer ε α}
    (run : Trace env s program events outcome t) (reflexive : ∀ s, related s s)
    (transitive : ∀ {s t u}, related s t → related t u → related s u)
    (step : ∀ {s request answer t}, env s request answer t → related s t) : related s t := by
  induction run with
  | done | fail | cut => exact reflexive _
  | call answered rest ih => exact transitive (step answered) ih

end Inversion

/-- As long as the answers are `expected`, every call issued is `allowed` and every
value returned satisfies `post`. -/
def Safe (expected : (request : Call) → Answer request → Prop) (allowed : Call → Prop)
    (post : α → Prop) : Program Call Answer ε α → Prop
  | .done value => post value
  | .fail _ => True
  | .call request next =>
    allowed request ∧ ∀ answer, expected request answer → (next answer).Safe expected allowed post

section Safe
variable {expected : (request : Call) → Answer request → Prop} {allowed : Call → Prop}

@[simp] theorem safe_done {post : α → Prop} (value : α) :
    (Program.done value : Program Call Answer ε α).Safe expected allowed post ↔
      post value := Iff.rfl

@[simp] theorem safe_fail {post : α → Prop} (error : ε) :
    (Program.fail error : Program Call Answer ε α).Safe expected allowed post := trivial

@[simp] theorem safe_call {post : α → Prop} (request : Call)
    (next : Answer request → Program Call Answer ε α) :
    (Program.call request next).Safe expected allowed post ↔
      allowed request ∧ ∀ answer, expected request answer →
        (next answer).Safe expected allowed post :=
  Iff.rfl

theorem Safe.bind {middle : α → Prop} {post : β → Prop} {program : Program Call Answer ε α}
    {next : α → Program Call Answer ε β} (first : program.Safe expected allowed middle)
    (rest : ∀ value, middle value → (next value).Safe expected allowed post) :
    (program >>= next).Safe expected allowed post := by
  induction program with
  | done value => exact rest value first
  | fail error => trivial
  | call request tail ih => exact ⟨first.1, fun answer known => ih answer (first.2 answer known)⟩

theorem Safe.weaken {allowed' : Call → Prop} {post post' : α → Prop}
    {program : Program Call Answer ε α} (safe : program.Safe expected allowed post)
    (calls : ∀ request, allowed request → allowed' request)
    (values : ∀ value, post value → post' value) : program.Safe expected allowed' post' := by
  induction program with
  | done value => exact values value safe
  | fail error => trivial
  | call request next ih =>
    exact ⟨calls request safe.1, fun answer known => ih answer (safe.2 answer known)⟩

theorem Safe.under {expected' : (request : Call) → Answer request → Prop} {post : α → Prop}
    {program : Program Call Answer ε α} (safe : program.Safe expected allowed post)
    (sub : ∀ request answer, expected' request answer → expected request answer) :
    program.Safe expected' allowed post := by
  induction program with
  | done value => exact safe
  | fail error => trivial
  | call request next ih =>
    exact ⟨safe.1, fun answer known => ih answer (safe.2 answer (sub _ _ known))⟩

/-- A safe program keeps every invariant that its allowed calls keep and under which
the environment answers as expected. A crash is covered: the outcome may be `cut`. -/
theorem Trace.safe {env : Environment Call Answer S} {program : Program Call Answer ε α}
    {post : α → Prop} {holds : S → Prop} (run : Trace env s program events outcome t)
    (safe : program.Safe expected allowed post)
    (step : ∀ {s request answer t}, allowed request → env s request answer t → holds s →
      expected request answer ∧ holds t) (initial : holds s) :
    holds t ∧ (∀ event ∈ events, allowed event.1) ∧ ∀ value, outcome = .done value →
      post value := by
  induction run with
  | done =>
    refine ⟨initial, by simp, ?_⟩
    rintro value ⟨⟩
    exact safe
  | fail | cut => exact ⟨initial, by simp, by simp⟩
  | call answered rest ih =>
    obtain ⟨known, after⟩ := step safe.1 answered initial
    obtain ⟨last, calls, returns⟩ := ih (safe.2 _ known) after
    refine ⟨last, ?_, returns⟩
    intro event member
    rcases List.mem_cons.mp member with rfl | later
    · exact safe.1
    · exact calls event later

/-- A safe program that was answered as expected throughout. -/
theorem Trace.safe_of_events {env : Environment Call Answer S} {program : Program Call Answer ε α}
    {post : α → Prop} (run : Trace env s program events outcome t)
    (safe : program.Safe expected allowed post)
    (answers : ∀ event ∈ events, expected event.1 event.2) :
    (∀ event ∈ events, allowed event.1) ∧ ∀ value, outcome = .done value → post value := by
  induction run with
  | done =>
    refine ⟨by simp, ?_⟩
    rintro value ⟨⟩
    exact safe
  | fail | cut => exact ⟨by simp, by simp⟩
  | call answered rest ih =>
    obtain ⟨first, later⟩ := List.forall_mem_cons.mp answers
    obtain ⟨calls, returns⟩ := ih (safe.2 _ first) later
    exact ⟨List.forall_mem_cons.mpr ⟨safe.1, calls⟩, returns⟩

/-- The case of an environment that always answers as expected. -/
theorem Trace.safe_of_expected {env : Environment Call Answer S} {program : Program Call Answer ε α}
    {post : α → Prop} (run : Trace env s program events outcome t)
    (safe : program.Safe expected allowed post)
    (answers : ∀ {s request answer t}, env s request answer t → expected request answer) :
    (∀ event ∈ events, allowed event.1) ∧ ∀ value, outcome = .done value → post value :=
  run.safe_of_events safe (run.answers answers)

end Safe

/-- From every state in `pre`, a run that returns has its value and last state in `post`. -/
def Ensures (env : Environment Call Answer S) (pre : S → Prop) (program : Program Call Answer ε α)
    (post : α → S → Prop) : Prop :=
  ∀ s events value t, pre s → Trace env s program events (.done value) t → post value t

section Ensures
variable {env : Environment Call Answer S} {pre : S → Prop}

theorem ensures_done {post : α → S → Prop} (holds : ∀ s, pre s → post value s) :
    Ensures env pre (.done value : Program Call Answer ε α) post := by
  intro s events result t initial run
  cases run with
  | done => exact holds s initial

theorem ensures_fail {post : α → S → Prop} (error : ε) :
    Ensures env pre (.fail error : Program Call Answer ε α) post := by
  intro s events result t initial run
  cases run

theorem ensures_call {request : Call} {next : Answer request → Program Call Answer ε α}
    {post : α → S → Prop}
    (step : ∀ answer, Ensures env (fun t => ∃ s, pre s ∧ env s request answer t)
      (next answer) post) :
    Ensures env pre (.call request next) post := by
  intro s events value u initial run
  cases run with
  | call answered rest => exact step _ _ _ _ _ ⟨s, initial, answered⟩ rest

theorem Ensures.bind {program : Program Call Answer ε α} {next : α → Program Call Answer ε β}
    {middle : α → S → Prop} {post : β → S → Prop} (first : Ensures env pre program middle)
    (rest : ∀ value, Ensures env (middle value) (next value) post) :
    Ensures env pre (program >>= next) post := by
  intro s events result u initial run
  obtain ⟨value, t, _, _, head, tail, -⟩ := run.bind_returned
  exact rest value _ _ _ _ (first _ _ _ _ initial head) tail

theorem Ensures.weaken {pre' : S → Prop} {program : Program Call Answer ε α}
    {post post' : α → S → Prop}
    (returns : Ensures env pre program post) (before : ∀ s, pre' s → pre s)
    (after : ∀ value s, post value s → post' value s) : Ensures env pre' program post' :=
  fun _ _ _ _ initial run => after _ _ (returns _ _ _ _ (before _ initial) run)

theorem Ensures.and {program : Program Call Answer ε α} {pre' : S → Prop}
    {post post' : α → S → Prop}
    (one : Ensures env pre program post) (two : Ensures env pre' program post') :
    Ensures env (fun s => pre s ∧ pre' s) program fun value t => post value t ∧ post' value t :=
  fun _ _ _ _ initial run => ⟨one _ _ _ _ initial.1 run, two _ _ _ _ initial.2 run⟩

/-- What the allowed calls keep, a run keeps. -/
theorem ensures_invariant {allowed : Call → Prop} {holds : S → Prop}
    {program : Program Call Answer ε α}
    {post : α → Prop} (safe : program.Safe (fun _ _ => True) allowed post)
    (step : ∀ {s request answer t}, allowed request → env s request answer t → holds s → holds t) :
    Ensures env holds program fun _ t => holds t :=
  fun _ _ _ _ initial run =>
    (run.safe safe (fun permitted answered now => ⟨trivial, step permitted answered now⟩) initial).1

end Ensures

/-- A deterministic environment, which a program can be run against. -/
abbrev Handler (Call : Type) (Answer : Call → Type) (S : Type) :=
  S → (request : Call) → Answer request × S

def play (handler : Handler Call Answer S) :
    Program Call Answer ε α → S → List (Event Call Answer) × Outcome ε α × S
  | .done value, s => ([], .done value, s)
  | .fail error, s => ([], .fail error, s)
  | .call request next, s =>
    let (answer, t) := handler s request
    let (events, outcome, u) := (next answer).play handler t
    (⟨request, answer⟩ :: events, outcome, u)

theorem play_trace {env : Environment Call Answer S} (handler : Handler Call Answer S)
    (answers : ∀ s request, env s request (handler s request).1 (handler s request).2)
    (program : Program Call Answer ε α) (s : S) :
    Trace env s program (program.play handler s).1 (program.play handler s).2.1
      (program.play handler s).2.2 := by
  induction program generalizing s with
  | done value => exact .done
  | fail error => exact .fail
  | call request next ih => exact .call (answers s request) (ih _ _)

/-- Playing a sequence whose first part returns. -/
theorem play_bind {handler : Handler Call Answer S} {program : Program Call Answer ε α}
    {next : α → Program Call Answer ε β}
    (first : program.play handler s = (events, .done middle, t))
    (rest : (next middle).play handler t = (later, outcome, u)) :
    (program >>= next).play handler s = (events ++ later, outcome, u) := by
  induction program generalizing s events with
  | done value =>
    simp only [play, Prod.mk.injEq, Outcome.done.injEq] at first
    obtain ⟨rfl, rfl, rfl⟩ := first
    exact rest
  | fail error => simp [play] at first
  | call request tail ih =>
    simp only [play, Prod.mk.injEq] at first
    obtain ⟨rfl, returned, ends⟩ := first
    simp only [call_bind, play, ih _ (Prod.ext rfl (Prod.ext returned ends)), List.cons_append]

theorem play_whole (handler : Handler Call Answer S) (program : Program Call Answer ε α) (s : S) :
    (program.play handler s).2.1 ≠ .cut := by
  induction program generalizing s with
  | done value => simp [play]
  | fail error => simp [play]
  | call request next ih => exact ih _ _

end Program
end TunnelOperator
