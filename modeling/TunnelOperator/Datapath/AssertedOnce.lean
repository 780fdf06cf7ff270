import TunnelOperator.Datapath.Iptables

/-! What Ensure does to the iptables rules, however it is answered and whatever others
flush meanwhile: it keeps every chain as it is and at most appends a rule the chain does not
have. -/
namespace TunnelOperator.Datapath
open Netip Program

/-- Every chain keeps its rules in their order, and gets at most one it did not have. -/
def Gentle (s t : Server) : Prop :=
  ∀ table chain, t.chains table chain = s.chains table chain ∨
    ∃ spec, spec ∉ s.chains table chain ∧ t.chains table chain = s.chains table chain ++ [spec]

/-- The environment in which every command of the agent is gentle. -/
def gentleEnv (outside : Server → Server → Prop) : Environment Command CommandReply Server :=
  fun s request answer u => ∃ t, outside s t ∧ Performs t request answer u ∧ Gentle t u

theorem gentle_of_chains {s t : Server} (same : t.chains = s.chains) : Gentle s t :=
  fun _ _ => .inl (by rw [same])

theorem gentle_append {s : Server} {r : IptablesRule} (lacks : ¬ s.Has r) :
    Gentle s (s.append r.table r.chain r.spec) := by
  intro table chain
  by_cases here : table = r.table ∧ chain = r.chain
  · obtain ⟨rfl, rfl⟩ := here
    exact .inr ⟨r.spec, lacks, by simp [Server.append]⟩
  · exact .inl (by simp [Server.append, here])

/-- Others only take rules away. -/
theorem Interference.lacks {s t : Server} {r : IptablesRule} (path : Interference s t)
    (lacks : ¬ s.Has r) :
    ¬ t.Has r := by
  induction path with
  | refl => exact lacks
  | tail _ step ih =>
    cases step with
    | flush table chain =>
      simp only [Server.Has, Server.rulesOf, Server.flush]
      split
      · exact List.not_mem_nil
      · exact ih
    | policy => exact ih

section Runs
variable {s t : Server} {events : List (Event Command CommandReply)}

/-- A rule is appended only after its check has found it absent, and nobody adds it
between the two commands. -/
theorem assertRules_gentle {rs : List IptablesRule} {outcome : Outcome Empty GoError}
    (run : Trace (serverEnv Interference) s (assertRules rs) events outcome t) :
    Trace (gentleEnv Interference) s (assertRules rs) events outcome t := by
  induction rs generalizing s events with
  | nil => exact run.at_done
  | cons r rest ih =>
    simp only [assertRules, runIptables, ask_bind] at run ⊢
    obtain ⟨rfl, rfl, rfl⟩ | ⟨answer, u, later, ⟨m, outside, ran⟩, tail, rfl⟩ := run.call_cases
    · exact .cut
    obtain ⟨rfl, present⟩ := iptables_check ran
    refine .call ⟨u, outside, ran, gentle_of_chains rfl⟩ ?_
    cases answer with
    | none => exact ih tail
    | some missing =>
      have lacks : ¬ u.Has r := fun has => by simpa using present.mpr has
      obtain ⟨rfl, rfl, rfl⟩ | ⟨answer, v, last, ⟨m, meanwhile, ran⟩, after, rfl⟩ := tail.call_cases
      · exact .cut
      have gentle : Gentle m v := by
        rcases iptables_append ran with ⟨-, rfl⟩ | ⟨-, rfl⟩
        · exact gentle_append (meanwhile.lacks lacks)
        · exact gentle_of_chains rfl
      refine .call ⟨m, meanwhile, ran, gentle⟩ ?_
      cases answer with
      | none => exact ih after
      | some e => exact after.at_done

theorem ensureIptables_gentle {outcome : Outcome Empty GoError}
    (run : Trace (serverEnv Interference) s (ensureIptables p) events outcome t) :
    Trace (gentleEnv Interference) s (ensureIptables p) events outcome t := by
  simp only [ensureIptables, runIptables, ask_bind] at run ⊢
  obtain ⟨rfl, rfl, rfl⟩ | ⟨answer, u, later, ⟨m, outside, ran⟩, tail, rfl⟩ := run.call_cases
  · exact .cut
  refine .call ⟨m, outside, ran, gentle_of_chains (iptables_policy ran).1⟩ ?_
  cases answer with
  | none => exact assertRules_gentle tail
  | some e => exact tail.at_done

theorem record_gentle {outside : Server → Server → Prop} {err : GoError}
    {outcome : Outcome Empty GoError}
    (run : Trace (serverEnv outside) s (record err) events outcome t) :
    Trace (gentleEnv outside) s (record err) events outcome t := by
  have safe : (record err).Safe (fun _ _ => True)
      (fun request => request = .record err) fun _ => True :=
    ⟨rfl, fun _ _ => trivial⟩
  refine run.restrict safe ?_
  rintro s _ answer u rfl ⟨m, outside, rfl⟩
  exact ⟨m, outside, rfl, gentle_of_chains rfl⟩

theorem attemptRouting_gentle {outside : Server → Server → Prop}
    {outcome : Outcome Empty (Except String Unit)}
    (run : Trace (serverEnv outside) s (attemptRouting p) events outcome t) :
    Trace (gentleEnv outside) s (attemptRouting p) events outcome t := by
  have safe : (attemptRouting p).Safe (fun _ _ => True)
      (fun request => ∃ inner, request = .routing inner) fun _ => True := attempt_safe _ _ _
  refine run.restrict safe ?_
  rintro s _ answer u ⟨inner, rfl⟩ ⟨m, outside, rfl⟩
  exact ⟨_, outside, rfl, gentle_of_chains rfl⟩

theorem ensure_gentle {outcome : Outcome Empty GoError}
    (run : Trace (serverEnv Interference) s (ensure peerCIDR) events outcome t) :
    Trace (gentleEnv Interference) s (ensure peerCIDR) events outcome t := by
  unfold ensure at run ⊢
  split
  · rename_i e unreadable
    simp only [unreadable] at run
    exact record_gentle run
  · rename_i p read
    simp only [read] at run
    exact run.bind_restrict attemptRouting_gentle fun tail =>
      tail.bind_restrict ensureIptables_gentle record_gentle

/-- Every command of a run is gentle. -/
theorem ensureEach_gentle {cidrs : List String} {outcome : Outcome Empty (List GoError)}
    (run : Trace (serverEnv Interference) s (ensureEach cidrs) events outcome t) :
    Trace (gentleEnv Interference) s (ensureEach cidrs) events outcome t := by
  induction cidrs generalizing s events outcome t with
  | nil => exact run.at_done
  | cons peerCIDR rest ih =>
    exact run.bind_restrict ensure_gentle fun tail => tail.bind_restrict ih Trace.at_done

/-- Copies of a rule do not become more, and none appears but a first one. -/
def NoCopies (s t : Server) : Prop := ∀ r : IptablesRule, t.copies r ≤ max (s.copies r) 1

theorem NoCopies.trans (one : NoCopies s t) (two : NoCopies t u) : NoCopies s u := by
  intro r
  have first := one r
  have second := two r
  omega

theorem Interference.noCopies (path : Interference s t) : NoCopies s t := by
  induction path with
  | refl => exact fun r => Nat.le_max_left _ _
  | tail _ step ih =>
    refine ih.trans fun r => ?_
    cases step with
    | flush table chain =>
      simp only [Server.copies, Server.rulesOf, Server.flush]
      split
      · simp
      · exact Nat.le_max_left _ _
    | policy => exact Nat.le_max_left _ _

theorem Gentle.noCopies (gentle : Gentle s t) : NoCopies s t := by
  intro r
  rcases gentle r.table r.chain with same | ⟨spec, new, appended⟩
  · simp [Server.copies, Server.rulesOf, same]
  · simp only [Server.copies, Server.rulesOf, appended, List.count_append]
    by_cases this : spec = r.spec
    · subst this
      rw [List.count_eq_zero.mpr new]
      simp
    · rw [List.count_singleton, if_neg (by simpa using this)]
      exact Nat.le_max_left _ _

theorem run_noCopies {α : Type} {program : Asserter α} {outcome : Outcome Empty α}
    (run : Trace (gentleEnv Interference) s program events outcome t) : NoCopies s t := by
  refine run.frame (fun _ _ => Nat.le_max_left _ _) NoCopies.trans ?_
  rintro s request answer u ⟨m, outside, -, gentle⟩
  exact outside.noCopies.trans gentle.noCopies

end Runs
end TunnelOperator.Datapath
