import TunnelOperator.Controller.Reports
import TunnelOperator.Controller.Apiserver
import TunnelOperator.Controller.Listable
import Mathlib.Data.List.Infix

/-! Ready over any run of passes and edits: it is not claimed before the Deployment
rendered from that generation is rolled out, and what it says of generations only
grows. -/
namespace TunnelOperator.Controller
open Program Resources

def ReadyAt (g : Int) (wg : Wireguard) : Prop :=
  ∃ cond, readyCondition wg.status = some cond ∧ cond.status = .true ∧ cond.observedGeneration = g

/-- Somewhere in the list a version says Ready for `g` and the one before it does not. -/
def Gains (g : Int) (versions : List Wireguard) : Prop :=
  ∃ a b, [a, b] <:+: versions ∧ ¬ ReadyAt g a ∧ ReadyAt g b

/-- The newest version of `r` and those that `r'` has in addition. -/
def addedTo (r r' : ServerRegister) : List Wireguard := r'.versions.drop (r.versions.length - 1)

/-- The calls of a pass that may claim Ready for `g`: it fetched that generation, found
no problem in its spec, had the peers and the Secret done, and the apply of the Deployment
rendered from it returned one that is rolled out. -/
def Justified (gw : NamespacedName) (g : Int) (events : List (Event Call Answer)) : Prop :=
  ∃ first rest wg svc secret dep, events = first ++ rest ∧ wg.generation = g ∧
    Assessed (ServerEnv gw) gw wg svc secret dep first ∧ dep.generation ≤ dep.observedGeneration ∧
    dep.readyReplicas = dep.replicas.getD 1 ∧ dep.updatedReplicas = dep.replicas.getD 1

/-- A status write adds conditions of the fetched generation to those of a copy read. -/
def Stamped (gw : NamespacedName) (events : List (Event Call Answer)) : Call → Prop
  | .updateWireguardStatus written => ∃ wg latest, events.head? = some ⟨.getWireguard gw, .ok wg⟩ ∧
      ⟨.getWireguard gw, .ok latest⟩ ∈ events ∧ ∀ cond ∈ written.status.conditions,
        cond ∈ latest.status.conditions ∨ cond.observedGeneration = wg.generation
  | _ => True

theorem rolloutProblem_empty (rolled : rolloutProblem dep = "") :
    dep.generation ≤ dep.observedGeneration ∧ dep.readyReplicas = dep.replicas.getD 1 ∧
      dep.updatedReplicas = dep.replicas.getD 1 := by
  simp only [rolloutProblem] at rolled
  split at rolled
  · simp at rolled
  · rename_i observed
    split at rolled
    · simp at rolled
    · rename_i replicas
      rw [not_or, not_not, not_not] at replicas
      exact ⟨Int.not_lt.mp observed, replicas⟩

section
variable {publicHalf : Wgtypes.Key → Wgtypes.Key} {gw : NamespacedName}
  {r r' u : ServerRegister} {g : Int} {cond : Condition}

/-! Where Ready is gained. -/

theorem readyAt_congr (same : a.status = b.status) : ReadyAt g a ↔ ReadyAt g b := by
  rw [ReadyAt, same, ReadyAt]

theorem not_gains (same : ∀ wg ∈ versions, wg.status = status) : ¬ Gains g versions := by
  rintro ⟨a, b, inside, before, after⟩
  have members := inside.subset
  have equal : a.status = b.status :=
    (same a (members (by simp))).trans (same b (members (by simp))).symm
  exact before ((readyAt_congr equal).mpr after)

theorem gains_last (same : ∀ wg ∈ versions, wg.status = status)
    (gains : Gains g (versions ++ [last])) :
    ReadyAt g last ∧ ∃ a, a.status = status ∧ ¬ ReadyAt g a := by
  obtain ⟨a, b, inside, before, after⟩ := gains
  rcases List.infix_concat_iff.mp inside with ⟨front, tail⟩ | earlier
  · have split : (front ++ [a]) ++ [b] = versions ++ [last] := by simpa using tail
    obtain ⟨rfl, final⟩ := List.append_inj' split rfl
    obtain rfl := List.singleton_inj.mp final
    exact ⟨after, a, same a (by simp), before⟩
  · exact absurd ⟨a, b, earlier, before, after⟩ (not_gains same)

theorem addedTo_append (more : r'.versions = r.versions ++ added) :
    addedTo r r' = r.current :: added := by
  rw [addedTo, more, List.drop_append_of_le_length (Nat.sub_le _ _),
    List.drop_length_sub_one r.nonempty]
  rfl

theorem addedTo_write (more : u.versions = r.versions ++ added) :
    addedTo r (u.write value) = r.current :: added ++ [value] :=
  addedTo_append ((congrArg (· ++ [value]) more).trans (List.append_assoc ..))

theorem Drifts.addedTo (drifts : Drifts r r') :
    ∃ added, r'.versions = r.versions ++ added ∧ ∀ wg ∈ r.current :: added,
      wg.status = r.current.status := by
  obtain ⟨added, more, same⟩ := drifts.versions
  exact ⟨added, more, List.forall_mem_cons.mpr ⟨rfl, same⟩⟩

/-- Only a report of a rolled out Deployment makes a status say Ready. -/
theorem recorded_readyAt (before : ¬ ReadyAt g a)
    (after : ReadyAt g { a with status := recordedStatus generation a.status cond identity }) :
    cond.type = conditionReady ∧ cond.status = .true ∧ g = generation := by
  obtain ⟨recorded, found, holds, rfl⟩ := after
  by_cases ready : cond.type = conditionReady
  · rw [readyCondition_ready ready] at found
    obtain rfl := Option.some.inj found
    exact ⟨ready, holds, rfl⟩
  · rw [readyCondition_other ready] at found
    exact absurd ⟨recorded, found, holds, rfl⟩ before

theorem Concludes.justified (concludes : Concludes (ServerEnv gw) gw first closing)
    (reported : closing.reported = some (wg, cond, identity)) (ready : cond.type = conditionReady)
    (holds : cond.status = .true) (rest : List (Event Call Answer)) :
    Justified gw wg.generation (first ++ rest) := by
  cases concludes with
  | quiet => contradiction
  | progressing | degraded | degrade =>
    cases reported
    exact absurd ready (of_decide_eq_true rfl)
  | @rollout _ svc secret dep assessed =>
    cases reported
    have rolled : rolloutProblem dep = "" := by
      by_contra problem
      simp [rolloutCondition, problem, condition] at holds
    exact ⟨first, rest, wg, svc, secret, dep, rfl, rfl, assessed, rolloutProblem_empty rolled⟩

theorem pass_justified (chronicle : Chronicle gw r)
    (run : Trace (ServerEnv gw) r (reconcile publicHalf gw) events outcome r')
    (gains : Gains g (addedTo r r')) :
    Justified gw g events := by
  rcases pass_effect chronicle run with drifts |
    ⟨t, v, closing, cond, identity, first, rest, fetching, later, rfl, concludes, reported, rfl⟩
  · obtain ⟨added, more, same⟩ := drifts.addedTo
    rw [addedTo_append more] at gains
    exact absurd gains (not_gains same)
  · have drifts := fetching.trans later
    obtain ⟨added, more, same⟩ := drifts.addedTo
    rw [addedTo_write more] at gains
    obtain ⟨after, a, status, before⟩ := gains_last same gains
    rw [readyAt_congr (status.trans drifts.status.symm)] at before
    obtain ⟨ready, holds, rfl⟩ := recorded_readyAt before after
    exact concludes.justified reported ready holds rest

theorem pass_stamped (chronicle : Chronicle gw r)
    (run : Trace (ServerEnv gw) r (reconcile publicHalf gw) events outcome r') :
    ∀ event ∈ events, Stamped gw events event.1 := by
  have silent : ∀ {event : Event Call Answer}, SparesStatus event.1 →
      Stamped gw events event.1 := by
    rintro ⟨request, answer⟩ spares
    cases request <;> trivial
  rcases pass_stages run with ⟨_, assessing⟩ |
    ⟨closing, wg, cond, identity, first, rest, u, ended, concludes, reported, assessing,
      recording, rfl⟩
  · exact fun event member => silent
      ((assessing.safe_of_expected (assess_spares _ _) fun _ => trivial).1 event member)
  intro event member
  rcases List.mem_append.mp member with early | late
  · exact silent ((assessing.safe_of_expected (assess_spares _ _) fun _ => trivial).1 event early)
  have fetched := concludes.fetched reported
  obtain ⟨t, fetching, rfl, -⟩ := assess_fetched assessing fetched
  rcases updateStatus_trace recording with spares | ⟨latest, written, answer, s, -, rfl, -, rfl⟩
  · exact silent (spares event late)
  · rcases List.mem_cons.mp late with rfl | last
    · exact silent trivial
    · obtain rfl := List.mem_singleton.mp last
      refine ⟨t.lastRead, latest, ?_, ?_, fun cond member => recorded_conditions member⟩
      · rw [List.head?_append, fetched]
        rfl
      · rw [(chronicle.drifts fetching).lastRead_key]
        simp

end

/-- Ready is never claimed early. Whatever the order of edits and passes and however stale
the reads: Ready becomes true for a generation only by a pass that fetched that generation
and found all of it done, every condition a pass adds carries the generation it fetched,
and the generation Ready was recorded for never decreases. -/
theorem ready_never_early (publicHalf : Wgtypes.Key → Wgtypes.Key) (gw : NamespacedName)
    (r : ServerRegister) (reached : ServerRun publicHalf gw r) :
    r.Grows readyGeneration ∧
    (∀ spec g, ¬ Gains g (addedTo r (editSpec r spec))) ∧
    ∀ events outcome r', Trace (ServerEnv gw) r (reconcile publicHalf gw) events outcome r' →
      (∀ event ∈ events, Stamped gw events event.1) ∧ ∀ g, Gains g (addedTo r r') →
        Justified gw g events := by
  have chronicle := run_chronicle reached
  refine ⟨chronicle.observed, fun spec g => ?_, fun events outcome r' run => ?_⟩
  · obtain ⟨added, more, same⟩ := (Drifts.edited spec .refl : Drifts r (editSpec r spec)).addedTo
    rw [addedTo_append more]
    exact not_gains same
  · exact ⟨pass_stamped chronicle run, fun g => pass_justified chronicle run⟩

/-- The sample cluster with a Secret and a Deployment that rolls out at once, around a
stored Wireguard that is read without lag. -/
def rolloutHandler : Handler Call Answer ServerRegister := fun r request =>
  match request with
  | .getWireguard key =>
    if key = sampleServer.key then
      (.ok r.current, ⟨r.versions, r.versions.length - 1, Nat.sub_one_lt_of_lt r.bound⟩)
    else (.error notFound, r)
  | .updateWireguardStatus wg =>
    if wg.key = sampleServer.key ∧ r.seen + 1 = r.versions.length then
      (.ok (), r.write { r.current with status := wg.status })
    else (.error notFound, r)
  | .getSecret _ =>
    (.ok (secretForWireguard sampleServer (.other "" none) drawnKey.string drawnPublicKey.string),
      r)
  | .applyDeployment dep => (.ok { dep with readyReplicas := 1, updatedReplicas := 1 }, r)
  | other => (sampleAnswer other, r)

theorem rolloutHandler_answers (r : ServerRegister) (request : Call) :
    ServerEnv sampleServer.key r request (rolloutHandler r request).1
      (rolloutHandler r request).2 := by
  cases request with
  | getWireguard key =>
    simp only [rolloutHandler]
    split
    · rename_i ours
      subst ours
      have newest : r.current =
          r.versions.get ⟨r.versions.length - 1, Nat.sub_one_lt_of_lt r.bound⟩ := by
        rw [Register.current, List.getLast_eq_getElem]
        rfl
      rw [newest]
      exact .cached (.version (Nat.le_sub_one_of_lt r.bound) _)
    · rename_i different
      exact .other different
  | updateWireguardStatus wg =>
    simp only [rolloutHandler]
    split
    · rename_i fresh
      exact .landed fresh.1 fresh.2 _
    · exact .refused _
  | _ => exact .other trivial

def rolloutPass (r : ServerRegister) :
    List (Event Call Answer) × Outcome ApiError Result × ServerRegister :=
  (reconcile (fun _ => drawnPublicKey) sampleServer.key).play rolloutHandler r

def freshServer : Wireguard := { sampleServer with status := .empty }

/-- The first pass reports Progressing, the second one Ready. -/
def startingPass : List (Event Call Answer) × Outcome ApiError Result × ServerRegister :=
  rolloutPass (.single freshServer)

def readyPass : List (Event Call Answer) × Outcome ApiError Result × ServerRegister :=
  rolloutPass startingPass.2.2

theorem ready_after_two_passes :
    ∃ g, Gains g (addedTo startingPass.2.2 readyPass.2.2) ∧
      Justified sampleServer.key g readyPass.1 := by
  have replay := fun r => play_trace rolloutHandler rolloutHandler_answers
    (reconcile (fun _ => drawnPublicKey) sampleServer.key) r
  have reached : ServerRun (fun _ => drawnPublicKey) sampleServer.key startingPass.2.2 :=
    .pass (.created (show freshServer.key = _ from rfl) rfl) (replay (.single freshServer))
  have before : readyCondition startingPass.2.2.current.status = none := by decide +kernel
  have after : (readyCondition readyPass.2.2.current.status).map (·.status) = some .true := by
    decide +kernel
  have together : [startingPass.2.2.current, readyPass.2.2.current] <:+: addedTo startingPass.2.2
      readyPass.2.2 := by
    decide +kernel
  obtain ⟨cond, found, holds⟩ := Option.map_eq_some_iff.mp after
  have gains : Gains cond.observedGeneration (addedTo startingPass.2.2 readyPass.2.2) := by
    refine ⟨_, _, together, ?_, cond, found, holds, rfl⟩
    rintro ⟨_, none, -⟩
    rw [before] at none
    contradiction
  obtain ⟨-, -, passes⟩ := ready_never_early _ _ _ reached
  exact ⟨_, gains, (passes _ _ _ (replay startingPass.2.2)).2 _ gains⟩

end TunnelOperator.Controller
