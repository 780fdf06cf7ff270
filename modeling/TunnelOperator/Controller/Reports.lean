import TunnelOperator.Controller.Observation

/-! The passes of one server, as its Wireguard's register sees them: edits that land in
between, and at most one report at the end about the version fetched first. -/
namespace TunnelOperator.Controller
open Program Resources

/-- Edits and passes, however they end, from the creation of the Wireguard on. -/
inductive ServerRun (publicHalf : Wgtypes.Key → Wgtypes.Key) (gw : NamespacedName) :
    ServerRegister → Prop where
  | created (named : wg.key = gw) (fresh : wg.status = .empty) :
    ServerRun publicHalf gw (.single wg)
  | edited (before : ServerRun publicHalf gw r) (spec : WireguardSpec) :
    ServerRun publicHalf gw (editSpec r spec)
  | pass (before : ServerRun publicHalf gw r)
      (run : Trace (ServerEnv gw) r (reconcile publicHalf gw) events outcome r') :
      ServerRun publicHalf gw r'

section
variable {publicHalf : Wgtypes.Key → Wgtypes.Key} {gw : NamespacedName}
  {r r' u : ServerRegister} {g : Int} {cond : Condition}

theorem Concludes.fetched {S : Type} {env : Environment Call Answer S}
    (concludes : Concludes env req events closing)
    (reported : closing.reported = some (wg, cond, identity)) :
    events.head? = some ⟨.getWireguard req, .ok wg⟩ := by
  cases concludes with
  | quiet => contradiction
  | progressing fetched | degraded fetched | degrade fetched =>
    cases reported
    exact fetched
  | rollout assessed =>
    cases reported
    obtain ⟨_, _, _, _, _, _, _, _, _, _, _, rfl, -⟩ := assessed.calls
    rfl

/-- The state in which a pass fetched the Wireguard it goes on to report about. -/
theorem assess_fetched (run : Trace (ServerEnv gw) r (assess publicHalf gw) events outcome u)
    (fetched : events.head? = some ⟨.getWireguard gw, .ok wg⟩) :
    ∃ t, Drifts r t ∧ t.lastRead = wg ∧ Drifts t u := by
  have spares := (run.safe_of_expected (assess_spares publicHalf gw) fun _ => trivial).1
  simp only [assess, ask_bind] at run
  cases run with
  | cut => contradiction
  | @call _ _ answer t _ _ _ _ answered rest =>
    obtain ⟨first, later⟩ := List.forall_mem_cons.mp spares
    obtain rfl : answer = .ok wg := eq_of_heq (Sigma.mk.inj (Option.some.inj fetched)).2
    exact ⟨t, answered.drifts first, answered.effect rfl, drifts_of_spares rest later⟩

theorem Chronicle.lastRead_key (chronicle : Chronicle gw r) : r.lastRead.key = gw :=
  chronicle.named _ (List.get_mem ..)

/-- What a pass leaves: edits alone, or edits and then its one report. -/
theorem pass_effect (chronicle : Chronicle gw r)
    (run : Trace (ServerEnv gw) r (reconcile publicHalf gw) events outcome r') :
    Drifts r r' ∨ ∃ t v closing cond identity first rest, Drifts r t ∧ Drifts t v ∧
      events = first ++ rest ∧
      Concludes (ServerEnv gw) gw first closing ∧
        closing.reported = some (t.lastRead, cond, identity) ∧
      r' = v.write { v.current with
        status := recordedStatus t.lastRead.generation v.current.status cond identity } := by
  rcases pass_stages run with ⟨_, assessing⟩ |
    ⟨closing, wg, cond, identity, first, rest, u, ended, concludes, reported, assessing,
      recording, rfl⟩
  · exact .inl (drifts_of_spares assessing
      (assessing.safe_of_expected (assess_spares _ _) fun _ => trivial).1)
  obtain ⟨t, fetching, rfl, assessed⟩ := assess_fetched assessing (concludes.fetched reported)
  rcases updateStatus_trace recording with silent
    | ⟨latest, written, answer, s, read, rfl, wrote, -⟩
  · exact .inl (fetching.trans (assessed.trans (drifts_of_spares recording silent)))
  have reading := read.drifts trivial
  obtain ⟨v, edits, rfl | ⟨-, newest, rfl⟩⟩ := wrote.effect
  · exact .inl (fetching.trans (assessed.trans (reading.trans edits)))
  · have fresh : s.lastRead = latest := read.effect (chronicle.drifts fetching).lastRead_key
    refine .inr ⟨t, v, closing, cond, identity, first, rest, fetching,
      assessed.trans (reading.trans edits), rfl, concludes, reported, ?_⟩
    rw [newest, fresh]

theorem readyGeneration_recorded (behind : readyGeneration wg ≤ (g : WithBot Int))
    (cond : Condition) (identity : Option ServerIdentity) :
    readyGeneration wg ≤ readyGeneration
      { wg with status := recordedStatus g wg.status cond identity } ∧
      readyGeneration { wg with status := recordedStatus g wg.status cond identity } ≤
        (g : WithBot Int) := by
  by_cases ready : cond.type = conditionReady
  · have recorded : readyGeneration { wg with status := recordedStatus g wg.status cond identity } =
        (g : WithBot Int) := by
      rw [readyGeneration, readyCondition_ready ready]
      rfl
    exact ⟨recorded ▸ behind, le_of_eq recorded⟩
  · have recorded : readyGeneration { wg with status := recordedStatus g wg.status cond identity } =
        readyGeneration wg := by
      rw [readyGeneration, readyCondition_other ready, readyGeneration]
    exact ⟨le_of_eq recorded.symm, recorded ▸ behind⟩

/-- Progressing is the report about a copy without a status. -/
theorem Concludes.bare {S : Type} {env : Environment Call Answer S}
    (concludes : Concludes env req events closing)
    (reported : closing.reported = some (wg, cond, identity)) (unset : wg.status.status = "")
    (bare : Bare status) :
    Bare (recordedStatus generation status cond identity) := by
  cases concludes with
  | quiet => contradiction
  | progressing =>
    cases reported
    exact ⟨(readyCondition_other (by decide)).trans bare.ready,
      (degradedCondition_progressing rfl).trans bare.degraded⟩
  | degraded _ started | degrade _ started | rollout _ started =>
    cases reported
    exact absurd unset started

theorem pass_chronicle (chronicle : Chronicle gw r)
    (run : Trace (ServerEnv gw) r (reconcile publicHalf gw) events outcome r') :
    Chronicle gw r' := by
  rcases pass_effect chronicle run with drifts |
    ⟨t, v, closing, cond, identity, _, _, fetching, drifts, -, concludes, reported, rfl⟩
  · exact chronicle.drifts drifts
  · have fetched := chronicle.drifts fetching
    have behind : readyGeneration v.current ≤ (t.lastRead.generation : WithBot Int) := by
      rw [readyGeneration_congr drifts.status]
      exact fetched.dated
    obtain ⟨forward, bounded⟩ := readyGeneration_recorded behind cond identity
    have known : t.lastRead.generation ≤ v.lastRead.generation :=
      drifts.lastRead_le Chronicle.ages fetched
    refine (fetched.drifts drifts).report (recordedStatus_started _ _ _ _) forward
      (le_trans bounded (WithBot.coe_le_coe.mpr known)) fun unset => ?_
    have early := unset_of_started_le (drifts.lastRead_le Chronicle.starts fetched) unset
    exact concludes.bare reported early (drifts.status ▸ fetched.young early)

theorem run_chronicle (reached : ServerRun publicHalf gw r) : Chronicle gw r := by
  induction reached with
  | @created wg named fresh =>
    have none : readyGeneration wg = ⊥ := by
      rw [readyGeneration, fresh]
      rfl
    refine ⟨by simpa [Register.single] using named, Register.grows_single _ _,
      Register.grows_single _ _, Register.grows_single _ _, none ▸ bot_le, fun _ => ?_⟩
    have bare : Bare WireguardStatus.empty := ⟨rfl, rfl⟩
    exact fresh ▸ bare
  | edited before spec ih => exact ih.editSpec spec
  | pass before run ih => exact pass_chronicle ih run

end
end TunnelOperator.Controller
