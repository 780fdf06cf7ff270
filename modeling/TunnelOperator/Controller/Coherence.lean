import TunnelOperator.Controller.Readiness

/-! Ready, Degraded and the summary of a status beside each other. A Degraded report does
not clear an earlier Ready. -/
namespace TunnelOperator.Controller
open Program Resources

def IsTrue (found : Option Condition) : Prop := found.map (·.status) = some .true

structure Coherent (status : WireguardStatus) : Prop where
  exclusive : ¬ (IsTrue (readyCondition status) ∧ IsTrue (degradedCondition status))
  summary : status.status = ready ↔ IsTrue (readyCondition status) ∧
    ¬ IsTrue (degradedCondition status)

/-- How a report of a calm run changes the version it lands on. -/
inductive Follows (wg : Wireguard) : Wireguard → Prop where
  | progressing {cond : Condition} (bare : Bare wg.status)
      (type : cond.type = conditionProgressing) :
      Follows wg { wg with status := recordedStatus g wg.status cond identity }
  | degraded {cond : Condition} (unready : ¬ IsTrue (readyCondition wg.status))
      (type : cond.type = conditionDegraded) :
      Follows wg { wg with status := recordedStatus g wg.status cond identity }
  | rollout {cond : Condition} (type : cond.type = conditionReady) :
      Follows wg { wg with status := recordedStatus g wg.status cond identity }

/-- Edits and passes from the creation of the Wireguard on in which no pass meets a cause
to report Degraded while the status says Ready. -/
inductive CalmRun (publicHalf : Wgtypes.Key → Wgtypes.Key) (gw : NamespacedName) :
    ServerRegister → Prop where
  | created (named : wg.key = gw) (fresh : wg.status = .empty) : CalmRun publicHalf gw (.single wg)
  | edited (before : CalmRun publicHalf gw r) (spec : WireguardSpec) :
      CalmRun publicHalf gw (editSpec r spec)
  | pass (before : CalmRun publicHalf gw r)
      (calm : IsTrue (readyCondition r.current.status) → ∀ wg,
        events.head? = some ⟨.getWireguard gw, .ok wg⟩ → ¬ Troubled wg events)
      (run : Trace (ServerEnv gw) r (reconcile publicHalf gw) events outcome r') :
      CalmRun publicHalf gw r'

section
variable {publicHalf : Wgtypes.Key → Wgtypes.Key} {gw : NamespacedName} {r r' : ServerRegister}
    {cond : Condition}

theorem CalmRun.reached (calm : CalmRun publicHalf gw r) : ServerRun publicHalf gw r := by
  induction calm with
  | created named fresh => exact .created named fresh
  | edited before spec ih => exact .edited ih spec
  | pass before _ run ih => exact .pass ih run

/-- What a report makes of the status, given that Progressing is only reported before there
is a status and Degraded only in trouble. -/
theorem Concludes.follows {S : Type} {env : Environment Call Answer S}
    (concludes : Concludes env req events closing)
    (reported : closing.reported = some (copy, cond, identity))
    (young : copy.status.status = "" → Bare wg.status)
    (calm : IsTrue (readyCondition wg.status) → ¬ Troubled copy events) :
    Follows wg { wg with status := recordedStatus g wg.status cond identity } := by
  cases concludes with
  | quiet => contradiction
  | progressing _ unset =>
    cases reported
    exact .progressing (young unset) rfl
  | degraded _ _ _ _ troubled | degrade _ _ _ _ troubled =>
    cases reported
    exact .degraded (fun holds => calm holds troubled) rfl
  | rollout =>
    cases reported
    refine .rollout ?_
    simp only [rolloutCondition]
    split <;> rfl

/-- Edits keep the status, so all versions stay coherent. -/
theorem Drifts.coherent (drifts : Drifts r r') (coherent : ∀ wg ∈ r.versions, Coherent wg.status) :
    ∀ wg ∈ r'.versions, Coherent wg.status := by
  obtain ⟨more, versions, same⟩ := drifts.versions
  rw [versions]
  refine List.forall_mem_append.mpr ⟨coherent, fun wg member => ?_⟩
  rw [same wg member]
  exact coherent _ r.current_mem

/-! One step. -/

theorem not_isTrue_of_bare (bare : Bare status) :
    ¬ IsTrue (readyCondition status) ∧ ¬ IsTrue (degradedCondition status) := by
  rw [bare.ready, bare.degraded]
  simp [IsTrue]

theorem coherent_of_not_ready (unready : ¬ IsTrue (readyCondition status))
    (summary : status.status ≠ ready) :
    Coherent status where
  exclusive both := unready both.1
  summary := ⟨fun same => absurd same summary, fun both => absurd both.1 unready⟩

theorem coherent_empty : Coherent .empty :=
  coherent_of_not_ready (not_isTrue_of_bare ⟨rfl, rfl⟩).1 (by decide)

theorem coherent_rollout (type : cond.type = conditionReady) (generation : Int)
    (latest : WireguardStatus)
    (identity : Option ServerIdentity) :
    Coherent (recordedStatus generation latest cond identity) := by
  have holds : IsTrue (readyCondition (recordedStatus generation latest cond identity)) ↔
      cond.status = .true := by
    rw [readyCondition_ready type]
    exact Option.some_inj
  have sound : ¬ IsTrue (degradedCondition (recordedStatus generation latest cond identity)) := by
    rw [IsTrue, degradedCondition_ready type]
    decide
  refine ⟨fun both => sound both.2, ?_⟩
  rw [recordedStatus_ready type, holds]
  split
  · rename_i up
    exact ⟨fun _ => ⟨up, sound⟩, fun _ => rfl⟩
  · rename_i down
    exact ⟨fun same => absurd same (by decide), fun both => absurd both.1 down⟩

/-- Each report leaves coherent conditions, whatever it finds. -/
theorem Follows.coherent (follows : Follows a b) : Coherent b.status := by
  cases follows with
  | progressing bare type =>
    refine coherent_of_not_ready ?_ ?_
    · rw [readyCondition_other (type ▸ by decide)]
      exact (not_isTrue_of_bare bare).1
    · rw [recordedStatus_progressing type]
      decide
  | degraded unready type =>
    refine coherent_of_not_ready ?_ ?_
    · rwa [readyCondition_other (type ▸ by decide)]
    · rw [recordedStatus_degraded type]
      decide
  | rollout type => exact coherent_rollout type _ _ _

end

/-- In every run in which no pass meets a cause to report Degraded while the status says
Ready, the conditions and the summary are coherent in all versions of the Wireguard. -/
theorem conditions_coherent (publicHalf : Wgtypes.Key → Wgtypes.Key) (gw : NamespacedName)
    (r : ServerRegister) (calm : CalmRun publicHalf gw r) :
    ∀ wg ∈ r.versions, Coherent wg.status := by
  induction calm with
  | created named fresh => simpa [Register.single, fresh] using coherent_empty
  | edited before spec ih => exact (Drifts.edited spec .refl).coherent ih
  | @pass r events outcome r' before calm run ih =>
    have chronicle := run_chronicle before.reached
    rcases pass_effect chronicle run with drifts |
      ⟨t, v, closing, cond, identity, first, rest, fetching, drifts, rfl, concludes, reported, rfl⟩
    · exact drifts.coherent ih
    -- The status is the one the pass began with until its report lands.
    have kept : v.current.status = r.current.status := (fetching.trans drifts).status
    have fetched : (first ++ rest).head? = some ⟨.getWireguard gw, .ok t.lastRead⟩ := by
      rw [List.head?_append, concludes.fetched reported]
      rfl
    intro wg member
    rcases Register.mem_write.mp member with early | rfl
    · exact drifts.coherent (fetching.coherent ih) wg early
    · refine (concludes.follows reported (fun unset => ?_) fun holds troubled => ?_).coherent
      · exact drifts.status ▸ (chronicle.drifts fetching).young unset
      · rw [kept] at holds
        exact calm holds _ fetched (troubled.mono (List.subset_append_left _ _))

/-! The sample server: Progressing, Ready, and Ready once more. -/

theorem replay_rolloutPass (r : ServerRegister) : Trace (ServerEnv sampleServer.key) r
    (reconcile (fun _ => drawnPublicKey) sampleServer.key) (rolloutPass r).1 (rolloutPass r).2.1
    (rolloutPass r).2.2 :=
  play_trace rolloutHandler rolloutHandler_answers _ r

/-- How the sample cluster answers the applies. -/
def Applies : (request : Call) → Answer request → Prop
  | .applyService svc, answer => answer = .ok { svc with clusterIP := "10.96.0.10" }
  | .applyDeployment _, answer => ∃ rolled, answer = .ok rolled
  | _, _ => True

theorem rolloutHandler_applies (r : ServerRegister) (request : Call) :
    Applies request (rolloutHandler r request).1 := by
  cases request with
  | applyService svc => rfl
  | applyDeployment dep => exact ⟨_, rfl⟩
  | _ => trivial

theorem rolloutPass_untroubled (r : ServerRegister) (wg : Wireguard)
    (spec : wg.spec = sampleServer.spec) : ¬ Troubled wg (rolloutPass r).1 := by
  have run : Trace (fun _ request answer _ => Applies request answer) r
      (reconcile (fun _ => drawnPublicKey) sampleServer.key) (rolloutPass r).1 _ _ :=
    play_trace rolloutHandler rolloutHandler_applies _ r
  have applies := run.answers id
  intro troubled
  cases troubled with
  | spec problem =>
    have fine : staticProblem sampleServer = none := by decide +kernel
    simp only [staticProblem, effectivePeerCIDR4, spec] at problem fine
    exact problem fine
  | env source =>
    rw [spec] at source
    exact absurd source List.not_mem_nil
  | service failed =>
    have answered : Applies _ _ := applies _ failed
    simp [Applies] at answered
  | outside applied refused =>
    obtain rfl := Except.ok.inj (applies _ applied : Applies _ _)
    have inside : ∀ name, clusterIPOutside name "10.96.0.10" sampleServer.spec.localCIDRs =
        .ok () :=
      fun _ => rfl
    rw [spec] at refused
    exact refused (inside _)
  | deployment failed =>
    obtain ⟨rolled, answered⟩ : Applies _ _ := applies _ failed
    contradiction

/-- A pass over the ready server. -/
def steadyPass : List (Event Call Answer) × Outcome ApiError Result × ServerRegister :=
  rolloutPass readyPass.2.2

theorem conditions_coherent_after_three_passes :
    steadyPass.2.2.versions.map (·.status.status) = ["", pending, ready, ready] ∧
      ∀ wg ∈ steadyPass.2.2.versions, Coherent wg.status := by
  refine ⟨by decide +kernel, conditions_coherent (fun _ => drawnPublicKey) sampleServer.key _ ?_⟩
  have calm : ∀ r, r.current.spec = sampleServer.spec →
      CalmRun (fun _ => drawnPublicKey) sampleServer.key r →
      CalmRun (fun _ => drawnPublicKey) sampleServer.key (rolloutPass r).2.2 := by
    intro r spec before
    refine .pass before (fun _ wg fetched => ?_) (replay_rolloutPass r)
    have first : (rolloutPass r).1.head? = some ⟨.getWireguard sampleServer.key, .ok r.current⟩ :=
      rfl
    obtain ⟨-, same⟩ := Sigma.mk.inj (Option.some.inj (first.symm.trans fetched))
    obtain rfl := Except.ok.inj (eq_of_heq same)
    exact rolloutPass_untroubled r _ spec
  have created : CalmRun (fun _ => drawnPublicKey) sampleServer.key (.single freshServer) :=
    .created (show freshServer.key = _ from rfl) rfl
  exact calm _ (by decide +kernel) (calm _ (by decide +kernel) (calm _ rfl created))

/-- The spec is edited to a peerCIDR with host bits once the server is ready. -/
def degradedPass : List (Event Call Answer) × Outcome ApiError Result × ServerRegister :=
  rolloutPass (editSpec readyPass.2.2 { sampleServer.spec with peerCIDR := "10.8.0.1/24" })

theorem degraded_beside_ready :
    ServerRun (fun _ => drawnPublicKey) sampleServer.key degradedPass.2.2 ∧
      IsTrue (readyCondition degradedPass.2.2.current.status) ∧
      IsTrue (degradedCondition degradedPass.2.2.current.status) := by
  refine ⟨.pass (.edited (.pass (.pass (.created (show freshServer.key = _ from rfl) rfl)
    (replay_rolloutPass _)) (replay_rolloutPass _)) _) (replay_rolloutPass _), ?_, ?_⟩
  · show Option.map _ _ = _
    decide +kernel
  · show Option.map _ _ = _
    decide +kernel

end TunnelOperator.Controller
