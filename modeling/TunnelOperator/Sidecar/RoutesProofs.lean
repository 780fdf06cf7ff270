import TunnelOperator.Sidecar.Routes

/-! What ensureRoutes leaves of the main table wherever it stops: the plan's operations
up to some point. -/
namespace TunnelOperator.Sidecar
open Netip Net Program

inductive RouteOp where
  | replace (r : Route)
  | delete (r : Route)

def RouteOp.run (t : MainTable) : RouteOp → MainTable
  | .replace r => t.replace r
  | .delete r => t.delete r

def runAll (t : MainTable) (ops : List RouteOp) : MainTable := ops.foldl RouteOp.run t

/-- The operations of a plan, in order. -/
def RoutePlan.operations (plan : RoutePlan) (wgIndex : Nat) : List RouteOp :=
  plan.localCIDRs.map (fun p => .replace (toRoute (localRoute plan p))) ++
    (.replace (toRoute (wgDefault wgIndex)) :: plan.stale.map .delete)

section Stops
variable {lists : MainTable → List Route → Prop} {t t' : MainTable} {plan : RoutePlan}

/-- A run of `program` leaves the table after some of `ops`, and after all of them if it
returns. -/
def Performs (lists : MainTable → List Route → Prop) (program : Netlink Unit) (ops : List RouteOp) :
    Prop :=
  ∀ t events outcome t', Trace (Kernel lists) t program events outcome t' →
    ∃ k, t' = runAll t (ops.take k) ∧ (outcome = .done () → ops.length ≤ k)

theorem performs_done : Performs lists (pure ()) [] := by
  intro t events outcome t' run
  refine ⟨0, ?_, fun _ => Nat.le_refl 0⟩
  cases run <;> rfl

theorem performs_fail {reason : String} : Performs lists (.fail reason) ops := by
  intro t events outcome t' run
  refine ⟨0, ?_, ?_⟩
  · cases run <;> rfl
  · rintro rfl
    cases run

theorem Performs.bind {first rest : Netlink Unit} (one : Performs lists first ops)
    (two : Performs lists rest more) : Performs lists (first >>= fun _ => rest) (ops ++ more) := by
  intro t events outcome t' run
  rcases run.bind_cases with ⟨part, rfl⟩ | ⟨error, part, rfl⟩ | ⟨_, u, _, _, part, later, rfl⟩
  · obtain ⟨k, reached, -⟩ := one _ _ _ _ part
    refine ⟨min k ops.length, ?_, nofun⟩
    rw [reached, List.take_append_of_le_length (Nat.min_le_right ..), List.take_eq_take_min]
  · obtain ⟨k, reached, -⟩ := one _ _ _ _ part
    refine ⟨min k ops.length, ?_, nofun⟩
    rw [reached, List.take_append_of_le_length (Nat.min_le_right ..), List.take_eq_take_min]
  · obtain ⟨k, reached, whole⟩ := one _ _ _ _ part
    obtain ⟨m, reached', whole'⟩ := two _ _ _ _ later
    refine ⟨ops.length + m, ?_, fun ended => ?_⟩
    · rw [reached', reached, List.take_of_length_le (whole rfl), List.take_length_add_append,
        runAll, runAll, runAll, List.foldl_append]
    · have := whole' ended
      rw [List.length_append]
      omega

/-- A call that runs `op` or, failing, ends the program. -/
theorem performs_call {request : NetlinkCall} {next : NetlinkAnswer request → Netlink Unit}
    (step : ∀ t answer u, Kernel lists t request answer u →
      u = t ∧ Performs lists (next answer) (op :: ops) ∨ u = op.run t ∧
        Performs lists (next answer) ops) :
    Performs lists (.call request next) (op :: ops) := by
  intro t events outcome t' run
  cases run with
  | cut => exact ⟨0, rfl, nofun⟩
  | call answered rest =>
    rcases step _ _ _ answered with ⟨rfl, later⟩ | ⟨rfl, later⟩
    · exact later _ _ _ _ rest
    · obtain ⟨k, reached, whole⟩ := later _ _ _ _ rest
      refine ⟨k + 1, ?_, fun ended => ?_⟩
      · rw [reached]
        rfl
      · have := whole ended
        simpa using this

/-- A call that leaves the table alone. -/
theorem performs_quiet {request : NetlinkCall} {next : NetlinkAnswer request → Netlink Unit}
    (step : ∀ t answer u, Kernel lists t request answer u → u = t ∧
      Performs lists (next answer) ops) :
    Performs lists (.call request next) ops := by
  intro t events outcome t' run
  cases run with
  | cut => exact ⟨0, rfl, nofun⟩
  | call answered rest =>
    obtain ⟨rfl, later⟩ := step _ _ _ answered
    exact later _ _ _ _ rest

theorem replaceLocal_performs (plan : RoutePlan) (ps : List Prefix) :
    Performs lists (replaceLocal plan ps)
      (ps.map fun p => .replace (toRoute (localRoute plan p))) := by
  induction ps with
  | nil => exact performs_done
  | cons p rest ih =>
    refine performs_call fun t answer u answered => ?_
    cases answered with
    | replace _ => exact .inr ⟨rfl, ih⟩
    | replaceFails _ e => exact .inl ⟨rfl, performs_fail⟩

theorem replaceDefault_performs (wgIndex : Nat) :
    Performs lists (replaceDefault wgIndex) [.replace (toRoute (wgDefault wgIndex))] := by
  refine performs_call fun t answer u answered => ?_
  cases answered with
  | replace _ => exact .inr ⟨rfl, performs_done⟩
  | replaceFails _ e => exact .inl ⟨rfl, performs_fail⟩

theorem delete_absent {t : MainTable} (absent : r ∉ t.entries) : t.delete r = t := by
  obtain ⟨entries, distinct⟩ := t
  have same : entries.filter (fun e => e ≠ r) = entries := by
    rw [List.filter_eq_self]
    intro e member
    simp only [ne_eq, decide_not, Bool.not_eq_eq_eq_not, Bool.not_true, decide_eq_false_iff_not]
    rintro rfl
    exact absent member
  simp only [SlotTable.delete, same]

theorem deleteStale_performs (stale : List Route) :
    Performs lists (deleteStale stale) (stale.map .delete) := by
  induction stale with
  | nil => exact performs_done
  | cons r rest ih =>
    refine performs_call fun t answer u answered => ?_
    cases answered with
    | delete present => exact .inr ⟨rfl, ih⟩
    | gone absent => exact .inr ⟨(delete_absent absent).symm, ih⟩
    | deleteFails _ e fault =>
      refine .inl ⟨rfl, ?_⟩
      cases e with
      | esrch => contradiction
      | eopnotsupp | eafnosupport | other text => exact performs_fail

/-- The IPv6 pass does not touch the table. -/
theorem deleteEachIPv6_performs (listed : List NetlinkRoute) :
    Performs lists (deleteEachIPv6 listed) [] := by
  induction listed with
  | nil => exact performs_done
  | cons r rest ih =>
    unfold deleteEachIPv6
    split
    · simp only [ask_bind]
      refine performs_quiet fun t answer u answered => ?_
      cases answered with
      | delete6 _ _ =>
        refine ⟨rfl, ?_⟩
        cases answer with
        | ok _ => exact ih
        | error e =>
          dsimp only
          split
          · exact ih
          · exact performs_fail
    · exact ih

theorem deleteIPv6Defaults_performs : Performs lists deleteIPv6Defaults [] := by
  simp only [deleteIPv6Defaults, ask_bind]
  refine performs_quiet fun t answer u answered => ?_
  cases answered with
  | list6 listed => exact ⟨rfl, deleteEachIPv6_performs listed⟩
  | listFails _ e =>
    refine ⟨rfl, ?_⟩
    dsimp only
    split
    · exact performs_done
    · exact performs_fail

theorem applyPlan_performs (wgIndex : Nat) (plan : RoutePlan) :
    Performs lists (applyPlan wgIndex plan) (plan.operations wgIndex) := by
  have deletes : Performs lists _ _ :=
    (deleteStale_performs plan.stale).bind deleteIPv6Defaults_performs
  rw [List.append_nil] at deletes
  exact (replaceLocal_performs plan plan.localCIDRs).bind
    ((replaceDefault_performs wgIndex).bind deletes)

/-- Wherever ensureRoutes stops, the table is as it was or some of the plan's operations
were run; all of them if it returns. -/
theorem ensureRoutes_stops
    (run : Trace (Kernel lists) t (ensureRoutes wgIndex localCIDRs) events outcome t') :
    t' = t ∧ outcome ≠ .done () ∨ ∃ dumped plan k, ⟨.routeList .v4, .ok dumped⟩ ∈ events ∧
      lists t (dumped.map toRoute) ∧ planRoutes (dumped.map toRoute) wgIndex localCIDRs = .ok plan ∧
      t' = runAll t ((plan.operations wgIndex).take k) ∧
      (outcome = .done () → (plan.operations wgIndex).length ≤ k) := by
  simp only [ensureRoutes, ask_bind] at run
  cases run with
  | cut => exact .inl ⟨rfl, nofun⟩
  | call answered later =>
    cases answered with
    | listFails _ e =>
      cases later with
      | fail => exact .inl ⟨rfl, nofun⟩
      | cut => exact .inl ⟨rfl, nofun⟩
    | list order =>
      dsimp only at later
      split at later
      · cases later with
        | fail => exact .inl ⟨rfl, nofun⟩
        | cut => exact .inl ⟨rfl, nofun⟩
      · rename_i plan planned
        obtain ⟨k, reached, whole⟩ := applyPlan_performs wgIndex plan _ _ _ _ later
        exact .inr ⟨_, plan, k, List.mem_cons_self, order, planned, reached, whole⟩

end Stops

section Reached
variable {lists : MainTable → List Route → Prop} {plan : RoutePlan}

/-- A run of `program` can stop after any number of `ops`, and can perform them all. -/
structure Stoppable (lists : MainTable → List Route → Prop) (program : Netlink Unit)
    (ops : List RouteOp) :
    Prop where
  cut : ∀ t k, ∃ events, Trace (Kernel lists) t program events .cut (runAll t (ops.take k))
  done : ∀ t, ∃ events, Trace (Kernel lists) t program events (.done ()) (runAll t ops)

theorem stoppable_done : Stoppable lists (pure ()) [] where
  cut t k := ⟨[], by rw [List.take_nil]; exact .cut⟩
  done t := ⟨[], .done⟩

theorem Stoppable.bind {first rest : Netlink Unit} (one : Stoppable lists first ops)
    (two : Stoppable lists rest more) :
    Stoppable lists (first >>= fun _ => rest) (ops ++ more) where
  cut t k := by
    by_cases inFirst : k ≤ ops.length
    · obtain ⟨events, run⟩ := one.cut t k
      rw [List.take_append_of_le_length inFirst]
      exact ⟨events, run.bind_cut⟩
    · obtain ⟨events, run⟩ := one.done t
      obtain ⟨later, tail⟩ := two.cut (runAll t ops) (k - ops.length)
      have whole : ops.take k = ops := List.take_of_length_le (Nat.le_of_not_le inFirst)
      rw [List.take_append, whole, runAll, List.foldl_append]
      exact ⟨events ++ later, run.bind tail⟩
  done t := by
    obtain ⟨events, run⟩ := one.done t
    obtain ⟨later, tail⟩ := two.done (runAll t ops)
    rw [runAll, List.foldl_append]
    exact ⟨events ++ later, run.bind tail⟩

/-- A call that can run `op` and go on. -/
theorem stoppable_call {request : NetlinkCall} {next : NetlinkAnswer request → Netlink Unit}
    (step : ∀ t, ∃ answer, Kernel lists t request answer (op.run t) ∧
      Stoppable lists (next answer) ops) :
    Stoppable lists (.call request next) (op :: ops) where
  cut t k := by
    cases k with
    | zero => exact ⟨[], .cut⟩
    | succ k =>
      obtain ⟨answer, answered, rest⟩ := step t
      obtain ⟨events, run⟩ := rest.cut (op.run t) k
      exact ⟨_, .call answered run⟩
  done t := by
    obtain ⟨answer, answered, rest⟩ := step t
    obtain ⟨events, run⟩ := rest.done (op.run t)
    exact ⟨_, .call answered run⟩

theorem replaceLocal_stoppable (plan : RoutePlan) (ps : List Prefix) :
    Stoppable lists (replaceLocal plan ps)
      (ps.map fun p => .replace (toRoute (localRoute plan p))) := by
  induction ps with
  | nil => exact stoppable_done
  | cons p rest ih => exact stoppable_call fun t => ⟨.ok (), .replace _, ih⟩

theorem replaceDefault_stoppable (wgIndex : Nat) :
    Stoppable lists (replaceDefault wgIndex) [.replace (toRoute (wgDefault wgIndex))] :=
  stoppable_call fun _ => ⟨.ok (), .replace _, stoppable_done⟩

theorem deleteStale_stoppable (stale : List Route) :
    Stoppable lists (deleteStale stale) (stale.map .delete) := by
  induction stale with
  | nil => exact stoppable_done
  | cons r rest ih =>
    refine stoppable_call fun t => ?_
    by_cases present : r ∈ t.entries
    · exact ⟨.ok (), .delete (r := staleRoute r) present, ih⟩
    · refine ⟨.error .esrch, ?_, ih⟩
      rw [RouteOp.run, delete_absent present]
      exact .gone (r := staleRoute r) present

theorem deleteIPv6Defaults_stoppable : Stoppable lists deleteIPv6Defaults [] where
  cut t k := ⟨[], by rw [List.take_nil]; exact .cut⟩
  done t := ⟨_, .call (.list6 []) .done⟩

theorem applyPlan_stoppable (wgIndex : Nat) (plan : RoutePlan) :
    Stoppable lists (applyPlan wgIndex plan) (plan.operations wgIndex) := by
  have deletes : Stoppable lists _ _ :=
    (deleteStale_stoppable plan.stale).bind deleteIPv6Defaults_stoppable
  rw [List.append_nil] at deletes
  exact (replaceLocal_stoppable plan plan.localCIDRs).bind
    ((replaceDefault_stoppable wgIndex).bind deletes)

/-- Every stop ensureRoutes_stops names happens. -/
theorem ensureRoutes_stoppable {t : MainTable} (order : lists t listed)
    (planned : planRoutes listed wgIndex localCIDRs = .ok plan) (k : Nat) :
    ∃ events, Trace (Kernel lists) t (ensureRoutes wgIndex localCIDRs) events .cut
      (runAll t ((plan.operations wgIndex).take k)) := by
  have stoppable : Stoppable lists (applyPlan wgIndex plan) (plan.operations wgIndex) :=
    applyPlan_stoppable wgIndex plan
  obtain ⟨events, run⟩ := stoppable.cut t k
  have dumped : (listed.map staleRoute).map toRoute = listed := by
    rw [List.map_map]
    exact List.map_id _
  have answered : Kernel lists t (.routeList .v4) (.ok (listed.map staleRoute)) t :=
    .list (dumped.symm ▸ order)
  simp only [ensureRoutes, ask_bind]
  refine ⟨⟨_, _⟩ :: events, .call answered ?_⟩
  simpa only [dumped, planned] using run

end Reached
end TunnelOperator.Sidecar
