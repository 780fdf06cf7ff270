import TunnelOperator.Datapath.AssertedOnce

/-! What a recorded result means: after an Ensure that nobody disturbed, nil stands for a
dropping FORWARD policy and all four rules; and at any time Err is the result of the last
Ensure that has completed. -/
namespace TunnelOperator.Datapath
open Netip Program

section Undisturbed
variable {s t : Server} {events : List (Event Command CommandReply)}

theorem Server.Has.append {r : IptablesRule} (has : s.Has r) (table chain : String)
    (spec : List String) :
    (s.append table chain spec).Has r := by
  simp only [Server.Has, Server.rulesOf, Server.append]
  split
  · exact List.mem_append_left _ has
  · exact has

theorem Server.has_append (s : Server) (r : IptablesRule) :
    (s.append r.table r.chain r.spec).Has r := by
  simp [Server.Has, Server.rulesOf, Server.append]

/-- A pass over the rules that returns nil leaves each of them present. -/
theorem assertRules_has {rs : List IptablesRule}
    (run : Trace (serverEnv Eq) s (assertRules rs) events (.done none) t) :
    t.policy = s.policy ∧ (∀ r, s.Has r → t.Has r) ∧ ∀ r ∈ rs, t.Has r := by
  induction rs generalizing s events with
  | nil =>
    cases run with
    | done => exact ⟨rfl, fun _ has => has, by simp⟩
  | cons r rest ih =>
    simp only [assertRules, runIptables, ask_bind] at run
    obtain ⟨answer, u, later, ⟨m, rfl, ran⟩, tail, -⟩ := run.call_returned
    obtain ⟨rfl, present⟩ := iptables_check ran
    cases answer with
    | none =>
      obtain ⟨policy, kept, others⟩ := ih tail
      exact ⟨policy, kept, List.forall_mem_cons.mpr ⟨kept r (present.mp rfl), others⟩⟩
    | some missing =>
      obtain ⟨answer, v, last, ⟨m, rfl, ran⟩, after, -⟩ := tail.call_returned
      cases answer with
      | some e => exact absurd after.returned.1 (by simp)
      | none =>
        obtain ⟨-, rfl⟩ | ⟨failed, -⟩ := iptables_append ran
        · obtain ⟨policy, kept, others⟩ := ih after
          have own := kept r (u.has_append r)
          exact ⟨policy, fun other has => kept other (has.append _ _ _),
            List.forall_mem_cons.mpr ⟨own, others⟩⟩
        · contradiction

theorem ensureIptables_has (run : Trace (serverEnv Eq) s (ensureIptables p) events (.done none) t) :
    t.policy = "DROP" ∧ ∀ r ∈ rules p, t.Has r := by
  simp only [ensureIptables, runIptables, ask_bind] at run
  obtain ⟨answer, u, later, ⟨m, rfl, ran⟩, tail, -⟩ := run.call_returned
  cases answer with
  | some e => exact absurd tail.returned.1 (by simp)
  | none =>
    obtain ⟨policy, -, present⟩ := assertRules_has tail
    exact ⟨policy.trans ((iptables_policy ran).2.2 rfl), present⟩

theorem joinErrors_none {first second : GoError} (joined : joinErrors first second = none) :
    second = none := by
  cases first with
  | none => exact joined
  | some e => cases second <;> simp [joinErrors] at joined

theorem record_returned {outside : Server → Server → Prop} {err : GoError}
    (run : Trace (serverEnv outside) s (record err) events (.done result) t) :
    result = err ∧ t.err = err ∧ ∃ m, outside s m ∧ t = { m with err := err } := by
  obtain ⟨answer, u, later, ⟨m, interfered, rfl⟩, tail, -⟩ := Trace.call_returned run
  cases tail with
  | done => exact ⟨rfl, rfl, m, interfered, rfl⟩

theorem ensure_has (run : Trace (serverEnv Eq) s (ensure peerCIDR) events (.done result) t)
    (clean : t.err = none) :
    ∃ p, parsePrefix peerCIDR = .ok p ∧ t.policy = "DROP" ∧ ∀ r ∈ rules p.masked, t.Has r := by
  unfold ensure at run
  split at run
  · obtain ⟨-, recorded, -⟩ := record_returned run
    simp [recorded] at clean
  · rename_i p read
    obtain ⟨routing, u, _, _, -, tail, -⟩ := run.bind_returned
    obtain ⟨iptables, v, _, _, asserted, last, -⟩ := tail.bind_returned
    obtain ⟨-, recorded, m, rfl, rfl⟩ := record_returned last
    obtain rfl := joinErrors_none (recorded.symm.trans clean)
    obtain ⟨policy, present⟩ := ensureIptables_has asserted
    exact ⟨p, read, policy, present⟩

/-- Whatever the routing pass is answered, the policy command is issued. -/
theorem ensure_policy {env : Environment Command CommandReply Server}
    (read : parsePrefix peerCIDR = .ok p)
    (run : Trace env s (ensure peerCIDR) events (.done result) t) :
    ∃ answer, (⟨.iptables policyArgs, answer⟩ : Event Command CommandReply) ∈ events := by
  simp only [ensure, read] at run
  obtain ⟨routing, u, first, later, -, tail, rfl⟩ := run.bind_returned
  obtain ⟨iptables, v, second, last, asserted, -, rfl⟩ := tail.bind_returned
  simp only [ensureIptables, runIptables, ask_bind] at asserted
  obtain ⟨answer, w, rest, -, -, rfl⟩ := asserted.call_returned
  exact ⟨answer, by simp⟩

end Undisturbed

section Err
variable {outside : Server → Server → Prop} {s t : Server}
    {events : List (Event Command CommandReply)}

def Unrecorded (request : Command) : Prop := ∀ err, request ≠ .record err

theorem assertRules_unrecorded (rs : List IptablesRule) :
    (assertRules rs).Safe (fun _ _ => True) Unrecorded fun _ => True := by
  induction rs with
  | nil => trivial
  | cons r rest ih =>
    simp only [assertRules, runIptables, ask_bind]
    refine ⟨by simp [Unrecorded], fun answer _ => ?_⟩
    cases answer with
    | none => exact ih
    | some missing =>
      refine ⟨by simp [Unrecorded], fun answer _ => ?_⟩
      cases answer with
      | none => exact ih
      | some e => trivial

theorem ensureIptables_unrecorded (p : Prefix) :
    (ensureIptables p).Safe (fun _ _ => True) Unrecorded fun _ => True := by
  simp only [ensureIptables, runIptables, ask_bind]
  refine ⟨by simp [Unrecorded], fun answer _ => ?_⟩
  cases answer with
  | none => exact assertRules_unrecorded _
  | some e => trivial

/-- Ensure records its result with its last call, and no other. -/
theorem ensure_eq (peerCIDR : String) :
    ∃ judge : Asserter GoError, ensure peerCIDR = (judge >>= record) ∧
    judge.Safe (fun _ _ => True) Unrecorded fun _ => True := by
  unfold ensure
  split
  · exact ⟨.done _, rfl, trivial⟩
  · rename_i p read
    refine ⟨do
      let routing ← attemptRouting p.masked
      let iptables ← ensureIptables p.masked
      pure (joinErrors (failure routing) iptables), ?_, ?_⟩
    · simp only [bind_assoc, pure_eq, done_bind]
    · have routing : (attemptRouting p.masked).Safe (fun _ _ => True)
          (fun request => ∃ inner, request = .routing inner) fun _ => True := attempt_safe _ _ _
      refine (routing.weaken ?_ fun _ _ => trivial).bind fun _ _ =>
        (ensureIptables_unrecorded _).bind fun _ _ => trivial
      rintro _ ⟨inner, rfl⟩
      simp [Unrecorded]

theorem performs_err (performed : Performs s request answer t) (silent : Unrecorded request) :
    t.err = s.err := by
  cases request with
  | routing inner => exact congrArg Server.err performed
  | iptables args => cases performed <;> rfl
  | record err => exact absurd rfl (silent err)

variable (private_ : ∀ {s t}, outside s t → t.err = s.err)
include private_

theorem unrecorded_err {α : Type} {program : Asserter α} {outcome : Outcome Empty α}
    {post : α → Prop} (run : Trace (serverEnv outside) s program events outcome t)
    (safe : program.Safe (fun _ _ => True) Unrecorded post) :
    t.err = s.err ∧ ∀ event ∈ events, Unrecorded event.1 := by
  have step : ∀ {u request answer v}, Unrecorded request → serverEnv outside u request answer v →
      u.err = s.err → True ∧ v.err = s.err := by
    rintro u request answer v silent ⟨m, interfered, performed⟩ now
    exact ⟨trivial, (performs_err performed silent).trans ((private_ interfered).trans now)⟩
  obtain ⟨kept, silent, -⟩ := run.safe safe step rfl
  exact ⟨kept, silent⟩

/-- Up to its record an Ensure leaves Err alone; from then on it has its result. -/
theorem ensure_cases {outcome : Outcome Empty GoError}
    (run : Trace (serverEnv outside) s (ensure peerCIDR) events outcome t) :
    (outcome = .cut ∧ t.err = s.err ∧ ∀ event ∈ events, Unrecorded event.1) ∨
      ∃ result, Trace (serverEnv outside) s (ensure peerCIDR) events (.done result) t ∧
        t.err = result ∧
        (outcome = .cut ∨ outcome = .done result) := by
  obtain ⟨judge, shape, silent⟩ := ensure_eq peerCIDR
  rw [shape] at run ⊢
  obtain ⟨head, rfl⟩ | ⟨error, -, -⟩ | ⟨result, u, first, last, head, tail, rfl⟩ := run.bind_cases
  · obtain ⟨kept, unrecorded⟩ := unrecorded_err private_ head silent
    exact .inl ⟨rfl, kept, unrecorded⟩
  · exact error.elim
  · obtain ⟨kept, unrecorded⟩ := unrecorded_err private_ head silent
    obtain ⟨rfl, rfl, rfl⟩ | ⟨answer, v, rest, answered, after, rfl⟩ := Trace.call_cases tail
    · exact .inl ⟨rfl, kept, by simpa using unrecorded⟩
    · obtain ⟨m, -, rfl⟩ := id answered
      cases after with
      | done => exact .inr ⟨result, head.bind (.call answered .done), rfl, .inr rfl⟩
      | cut => exact .inr ⟨result, head.bind (.call answered .done), rfl, .inl rfl⟩

omit private_

/-- At the state `t` of a run over `cidrs` some of the calls have completed, with the
results `results`, no later one has recorded anything, and Err is the last of the results. -/
structure Reported (outside : Server → Server → Prop) (s : Server) (cidrs : List String)
    (events : List (Event Command CommandReply)) (results : List GoError) (t : Server) : Prop where
  parts : ∃ finished pending first later m, cidrs = finished ++ pending ∧ events = first ++ later ∧
    Trace (serverEnv outside) s (ensureEach finished) first (.done results) m ∧
    Trace (serverEnv outside) m (ensureEach pending) later .cut t ∧ ∀ event ∈ later,
      Unrecorded event.1
  err : t.err = results.getLast?.getD s.err

theorem Reported.cons (first : Trace (serverEnv outside) s (ensure peerCIDR) early (.done result) u)
    (now : u.err = result) (reported : Reported outside u cidrs late results t) :
    Reported outside s (peerCIDR :: cidrs) (early ++ late) (result :: results) t := by
  obtain ⟨⟨finished, pending, begun, later, m, rfl, rfl, done, going, silent⟩, err⟩ := reported
  refine ⟨⟨peerCIDR :: finished, pending, early ++ begun, later, m, rfl,
    (List.append_assoc ..).symm, ?_, going, silent⟩, ?_⟩
  · have more : Trace (serverEnv outside) u
        (ensureEach finished >>= fun errs => pure (result :: errs))
        (begun ++ []) (.done (result :: results)) m := done.bind .done
    rw [List.append_nil] at more
    exact first.bind more
  · rw [err, now, List.getLast?_cons, Option.getD_some]

include private_

theorem ensureEach_reported {cidrs : List String} {outcome : Outcome Empty (List GoError)}
    (run : Trace (serverEnv outside) s (ensureEach cidrs) events outcome t) :
    ∃ results, Reported outside s cidrs events results t ∧
      (outcome = .cut ∨ outcome = .done results) := by
  induction cidrs generalizing s events outcome t with
  | nil =>
    have here : Reported outside s [] [] [] s :=
      ⟨⟨[], [], [], [], s, rfl, rfl, .done, .cut, by simp⟩, rfl⟩
    cases run with
    | done => exact ⟨[], here, .inr rfl⟩
    | cut => exact ⟨[], here, .inl rfl⟩
  | cons peerCIDR rest ih =>
    obtain ⟨head, rfl⟩ | ⟨error, -, -⟩ | ⟨result, u, first, last, head, tail, rfl⟩ := run.bind_cases
    · obtain ⟨-, kept, silent⟩ | ⟨result, done, now, -⟩ := ensure_cases private_ head
      · refine ⟨[], ⟨⟨[], peerCIDR :: rest, [], events, s, rfl, rfl, .done, run, silent⟩, kept⟩,
          .inl rfl⟩
      · have here : Reported outside t rest [] [] t :=
          ⟨⟨[], rest, [], [], t, rfl, rfl, .done, .cut, by simp⟩, rfl⟩
        have one := Reported.cons done now here
        rw [List.append_nil] at one
        exact ⟨[result], one, .inl rfl⟩
    · exact error.elim
    · obtain ⟨ended, -⟩ | ⟨other, -, now, ended | same⟩ := ensure_cases private_ head
      · contradiction
      · contradiction
      · obtain rfl := Outcome.done.inj same
        obtain ⟨more, rfl⟩ | ⟨error, -, -⟩ | ⟨errs, v, early, late, more, after, rfl⟩ :=
          tail.bind_cases
        · obtain ⟨results, reported, -⟩ := ih more
          exact ⟨result :: results, .cons head now reported, .inl rfl⟩
        · exact error.elim
        · cases after with
          | done =>
            obtain ⟨results, reported, ended | same⟩ := ih more
            · contradiction
            · obtain rfl := Outcome.done.inj same
              rw [List.append_nil]
              exact ⟨_, .cons head now reported, .inr rfl⟩
          | cut =>
            obtain ⟨results, reported, -⟩ := ih more
            rw [List.append_nil]
            exact ⟨_, .cons head now reported, .inl rfl⟩

end Err

theorem Interference.err {s t : Server} (path : Interference s t) : t.err = s.err := by
  induction path with
  | refl => rfl
  | tail _ step ih =>
    rw [← ih]
    cases step <;> rfl

end TunnelOperator.Datapath
