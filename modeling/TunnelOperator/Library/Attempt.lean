import TunnelOperator.Library.Program

/-! A program as a part of a larger one: its calls are calls of the larger one, and the
error it ends with is a value there. -/
namespace TunnelOperator.Program
variable {Call Call' : Type} {Answer : Call → Type} {Answer' : Call' → Type} {ε ε' α S : Type}

def attempt (inject : Call → Call')
    (reply : (request : Call) → Answer' (inject request) → Answer request) :
    Program Call Answer ε α → Program Call' Answer' ε' (Except ε α)
  | .done value => .done (.ok value)
  | .fail error => .done (.error error)
  | .call request next => .call (inject request) fun answer => attempt inject reply
    (next (reply request answer))

theorem attempt_safe {expected : (request : Call') → Answer' request → Prop} (inject : Call → Call')
    (reply : (request : Call) → Answer' (inject request) → Answer request)
    (program : Program Call Answer ε α) :
    (attempt inject reply program : Program Call' Answer' ε' (Except ε α)).Safe expected
      (fun request => ∃ inner, request = inject inner) fun _ => True := by
  induction program with
  | done value => trivial
  | fail error => trivial
  | call request next ih => exact ⟨⟨request, rfl⟩, fun answer _ => ih _⟩

theorem Safe.attempt {expected : (request : Call) → Answer request → Prop} {allowed : Call → Prop}
    {expected' : (request : Call') → Answer' request → Prop} {allowed' : Call' → Prop}
    {post : α → Prop}
    {program : Program Call Answer ε α} (safe : program.Safe expected allowed post)
    (inject : Call → Call')
    (reply : (request : Call) → Answer' (inject request) → Answer request)
    (calls : ∀ request, allowed request → allowed' (inject request))
    (answers : ∀ request answer, expected' (inject request) answer →
      expected request (reply request answer)) :
    (attempt inject reply program : Program Call' Answer' ε' (Except ε α)).Safe expected' allowed'
      fun _ => True := by
  induction program with
  | done value => trivial
  | fail error => trivial
  | call request next ih =>
    exact ⟨calls request safe.1, fun answer known => ih _ (safe.2 _ (answers request answer known))⟩

/-- A run of it is a run of the program on the part of the state its calls are about. What
its calls make of the whole state, one after the other, holds of the run. -/
theorem Trace.attempted {S' : Type} (env : Environment Call Answer S) (view : S' → S)
    (makes : List (Event Call Answer) → S' → S' → Prop)
    {env' : Environment Call' Answer' S'} {inject : Call → Call'}
    {reply : (request : Call) → Answer' (inject request) → Answer request}
    {program : Program Call Answer ε α}
    {outcome : Outcome ε' (Except ε α)} {s t : S'}
    (run : Trace env' s (attempt inject reply program) events outcome t)
    (none : ∀ s, makes [] s s)
    (step : ∀ {s request answer t}, env' s (inject request) answer t →
      env (view s) request (reply request answer) (view t) ∧
        ∀ {events u}, makes events t u → makes (⟨request, reply request answer⟩ :: events) s u) :
    ∃ inner result, Trace env (view s) program inner result (view t) ∧ makes inner s t ∧
      ((∃ value, result = .done value ∧ outcome = .done (.ok value)) ∨
        (∃ error, result = .fail error ∧ outcome = .done (.error error)) ∨ result = .cut ∧
          outcome = .cut) := by
  induction program generalizing s events with
  | done value =>
    cases run with
    | done => exact ⟨_, _, .done, none _, .inl ⟨value, rfl, rfl⟩⟩
    | cut => exact ⟨_, _, .cut, none _, .inr (.inr ⟨rfl, rfl⟩)⟩
  | fail error =>
    cases run with
    | done => exact ⟨_, _, .fail, none _, .inr (.inl ⟨error, rfl, rfl⟩)⟩
    | cut => exact ⟨_, _, .cut, none _, .inr (.inr ⟨rfl, rfl⟩)⟩
  | call request next ih =>
    cases run with
    | cut => exact ⟨_, _, .cut, none _, .inr (.inr ⟨rfl, rfl⟩)⟩
    | call answered after =>
      obtain ⟨answered, made⟩ := step answered
      obtain ⟨inner, result, run, later, ends⟩ := ih _ after
      exact ⟨_, result, .call answered run, made later, ends⟩

/-- The same where the result is handled without further calls. -/
theorem Trace.attempted_then {S' β : Type} (env : Environment Call Answer S) (view : S' → S)
    (makes : List (Event Call Answer) → S' → S' → Prop)
    {env' : Environment Call' Answer' S'} {inject : Call → Call'}
    {reply : (request : Call) → Answer' (inject request) → Answer request}
    {program : Program Call Answer ε α}
    {handle : Except ε α → Program Call' Answer' ε' β} {outcome : Outcome ε' β} {s t : S'}
    (run : Trace env' s (attempt inject reply program >>= handle) events outcome t)
    (none : ∀ s, makes [] s s)
    (step : ∀ {s request answer t}, env' s (inject request) answer t →
      env (view s) request (reply request answer) (view t) ∧
        ∀ {events u}, makes events t u → makes (⟨request, reply request answer⟩ :: events) s u)
    (silent : ∀ given s events outcome t, Trace env' s (handle given) events outcome t → t = s) :
    ∃ inner result, Trace env (view s) program inner result (view t) ∧ makes inner s t ∧
      ∀ value, outcome = .done value → ∃ given later, Trace env' t (handle given) later
        (.done value) t ∧
        ((∃ a, given = .ok a ∧ result = .done a) ∨ ∃ e, given = .error e ∧ result = .fail e) := by
  rcases run.bind_cases with ⟨first, rfl⟩ | ⟨e, first, -⟩ | ⟨given, u, _, later, first, after, -⟩
  · obtain ⟨inner, result, ran, made, -⟩ := first.attempted env view makes none step
    exact ⟨inner, result, ran, made, by simp⟩
  · obtain ⟨-, -, -, -, ⟨_, -, ended⟩ | ⟨_, -, ended⟩ | ⟨-, ended⟩⟩ :=
      first.attempted env view makes none step <;> cases ended
  · obtain ⟨inner, result, ran, made, ends⟩ := first.attempted env view makes none step
    obtain rfl := silent _ _ _ _ _ after
    refine ⟨inner, result, ran, made, ?_⟩
    rintro value rfl
    refine ⟨given, later, after, ?_⟩
    rcases ends with ⟨a, rfl, ended⟩ | ⟨e, rfl, ended⟩ | ⟨-, ended⟩
    · exact .inl ⟨a, Outcome.done.inj ended, rfl⟩
    · exact .inr ⟨e, Outcome.done.inj ended, rfl⟩
    · contradiction

/-- The program with its error reworded. -/
def rethrow (reword : ε → ε') : Program Call Answer ε α → Program Call Answer ε' α
  | .done value => .done value
  | .fail error => .fail (reword error)
  | .call request next => .call request fun answer => rethrow reword (next answer)

theorem rethrow_safe {expected : (request : Call) → Answer request → Prop} {allowed : Call → Prop}
    {post : α → Prop}
    (reword : ε → ε') {program : Program Call Answer ε α}
    (safe : program.Safe expected allowed post) :
    (rethrow reword program).Safe expected allowed post := by
  induction program with
  | done value => exact safe
  | fail error => trivial
  | call request next ih => exact ⟨safe.1, fun answer known => ih answer (safe.2 answer known)⟩

/-- A run of it is a run of the program, whose error is reworded. -/
theorem Trace.rethrown {env : Environment Call Answer S} {reword : ε → ε'}
    {program : Program Call Answer ε α}
    {outcome : Outcome ε' α} (run : Trace env s (rethrow reword program) events outcome t) :
    ∃ inner, Trace env s program events inner t ∧
      ((∃ value, inner = .done value ∧ outcome = .done value) ∨
        (∃ error, inner = .fail error ∧ outcome = .fail (reword error)) ∨ inner = .cut ∧
          outcome = .cut) := by
  induction program generalizing s events with
  | done value =>
    cases run with
    | done => exact ⟨_, .done, .inl ⟨value, rfl, rfl⟩⟩
    | cut => exact ⟨_, .cut, .inr (.inr ⟨rfl, rfl⟩)⟩
  | fail error =>
    cases run with
    | fail => exact ⟨_, .fail, .inr (.inl ⟨error, rfl, rfl⟩)⟩
    | cut => exact ⟨_, .cut, .inr (.inr ⟨rfl, rfl⟩)⟩
  | call request next ih =>
    cases run with
    | cut => exact ⟨_, .cut, .inr (.inr ⟨rfl, rfl⟩)⟩
    | call answered rest =>
      obtain ⟨inner, run, same⟩ := ih _ rest
      exact ⟨inner, .call answered run, same⟩

theorem Trace.rethrown_done {env : Environment Call Answer S} {reword : ε → ε'}
    {program : Program Call Answer ε α}
    (run : Trace env s (rethrow reword program) events (.done value) t) :
    Trace env s program events (.done value) t := by
  obtain ⟨inner, run, ⟨v, rfl, same⟩ | ⟨e, -, same⟩ | ⟨-, same⟩⟩ := run.rethrown
  · cases same
    exact run
  · contradiction
  · contradiction

theorem Trace.rethrow_done {env : Environment Call Answer S} {program : Program Call Answer ε α}
    (reword : ε → ε')
    (run : Trace env s program events (.done value) t) :
    Trace env s (rethrow reword program) events (.done value) t := by
  induction program generalizing s events with
  | done value =>
    cases run
    exact .done
  | fail error => cases run
  | call request next ih =>
    cases run with
    | call answered rest => exact .call answered (ih _ rest)

theorem Trace.attempt_done {S' : Type} {env : Environment Call Answer S}
    {env' : Environment Call' Answer' S'}
    (inject : Call → Call') (reply : (request : Call) → Answer' (inject request) → Answer request)
    (back : (request : Call) → Answer request → Answer' (inject request)) (place : S → S')
    {program : Program Call Answer ε α} (run : Trace env s program events (.done value) t)
    (step : ∀ {s request answer t}, ⟨request, answer⟩ ∈ events → env s request answer t →
      env' (place s) (inject request) (back request answer) (place t) ∧
        reply request (back request answer) = answer) :
    ∃ later, Trace env' (place s)
      (attempt inject reply program : Program Call' Answer' ε' (Except ε α)) later
      (.done (.ok value)) (place t) := by
  induction program generalizing s events with
  | done value =>
    cases run
    exact ⟨[], .done⟩
  | fail error => cases run
  | call request next ih =>
    cases run with
    | call answered rest =>
      obtain ⟨later, run⟩ := ih _ rest fun member => step (List.mem_cons_of_mem _ member)
      obtain ⟨step, same⟩ := step List.mem_cons_self answered
      exact ⟨_, .call step (same.symm ▸ run)⟩

/-- A run whose calls the second environment answers alike. -/
theorem Trace.restrict {env env' : Environment Call Answer S} {program : Program Call Answer ε α}
    {allowed : Call → Prop} {post : α → Prop} (run : Trace env s program events outcome t)
    (safe : program.Safe (fun _ _ => True) allowed post)
    (step : ∀ {s request answer t}, allowed request → env s request answer t →
      env' s request answer t) :
    Trace env' s program events outcome t := by
  induction run with
  | done => exact .done
  | fail => exact .fail
  | cut => exact .cut
  | call answered _ ih => exact .call (step safe.1 answered) (ih (safe.2 _ trivial))

/-- Once a program is done, the environment plays no part. -/
theorem Trace.at_done {env env' : Environment Call Answer S} {value : α} {outcome : Outcome ε α}
    (run : Trace env s (.done value : Program Call Answer ε α) events outcome t) :
    Trace env' s (.done value : Program Call Answer ε α) events outcome t := by
  cases run with
  | done => exact .done
  | cut => exact .cut

/-- A sequence whose parts run in another environment does so itself. -/
theorem Trace.bind_restrict {β : Type} {env env' : Environment Call Answer S}
    {program : Program Call Answer ε α} {next : α → Program Call Answer ε β} {outcome : Outcome ε β}
    (run : Trace env s (program >>= next) events outcome t)
    (first : ∀ {events outcome t}, Trace env s program events outcome t →
      Trace env' s program events outcome t)
    (rest : ∀ {value events u}, Trace env u (next value) events outcome t →
      Trace env' u (next value) events outcome t) :
    Trace env' s (program >>= next) events outcome t := by
  rcases run.bind_cases with ⟨head, rfl⟩ | ⟨error, head, rfl⟩
    | ⟨middle, u, early, late, head, tail, rfl⟩
  · exact (first head).bind_cut
  · exact (first head).bind_fail
  · exact (first head).bind (rest tail)

end TunnelOperator.Program
