import TunnelOperator.Controller.Stages

/-! A pass as an assessment, which leaves the status of the Wireguard alone, and the one
report it may end with. -/
namespace TunnelOperator.Controller
open Program Resources

/-- How a pass ends: with nothing to report, with a report, or with an error that is
reported before it is returned. -/
inductive Closing where
  | quiet (result : Result)
  | report (wg : Wireguard) (cond : Condition) (identity : Option ServerIdentity) (result : Result)
  | degrade (wg : Wireguard) (err : ApiError) (reason : String)

def Closing.close : Closing → Reconciler Result
  | .quiet result => return result
  | .report wg cond identity result => Controller.report wg cond identity result
  | .degrade wg err reason => failDegraded wg err reason

def progressing (wg : Wireguard) : Closing :=
  .report wg (condition conditionProgressing .true "FetchingStatus" "Fetching Wireguard status")
    none .empty

def degraded (wg : Wireguard) (reason message : String) : Closing :=
  .report wg (condition conditionDegraded .true reason message) none .afterMinute

/-- The Ready condition a Deployment is worth. -/
def rolloutCondition (dep : Deployment) : Condition :=
  let msg := rolloutProblem dep
  if msg ≠ "" then condition conditionReady .false reasonDeploymentNotReady msg
  else condition conditionReady .true "Active" "VPN is active!"

def assessRollout (wg : Wireguard) (svc : Service) (secret : Secret)
    (admitted : List WireguardPeer) :
    Reconciler Closing := do
  match ← ask (.applyDeployment (deploymentForWireguard wg)) with
  | .error e => return .degrade wg e "DeploymentApplyFailed"
  | .ok dep => do
    syncPeerIdentity wg (identityOf svc secret) admitted
    return .report wg (rolloutCondition dep) (some (identityOf svc secret)) .empty

section
variable (publicHalf : Wgtypes.Key → Wgtypes.Key)

def assessServing (wg : Wireguard) (svc : Service) (admitted : List WireguardPeer) :
    Reconciler Closing := do
  match ← ask (.getSecret wg.key) with
  | .ok secret => do
    syncSecret wg secret admitted
    assessRollout wg svc secret admitted
  | .error e =>
    if e.isNotFound then do
      let result ← mintSecret publicHalf wg admitted
      return .quiet result
    else .fail e

def assess (req : NamespacedName) : Reconciler Closing := do
  match ← ask (Call.getWireguard req) with
  | .error e =>
    if e.isNotFound then do
      markPeersWireguardNotFound req
      return .quiet .empty
    else .fail e
  | .ok wg =>
    if wg.status.status = "" then return progressing wg
    else do
      match ← specProblem wg with
      | some (reason, msg) => return degraded wg reason msg
      | none => do
        match ← ask (Call.applyService (serviceForWireguard wg)) with
        | .error e => return .degrade wg e "ServiceApplyFailed"
        | .ok svc =>
          match clusterIPOutside svc.name svc.clusterIP wg.spec.localCIDRs with
          | .error msg => return degraded wg reasonClusterIPOutsideLocalCIDRs msg
          | .ok _ => do
            let admitted ← reconcilePeers req wg
            assessServing publicHalf wg svc admitted

theorem publish_eq (wg : Wireguard) (svc : Service) (secret : Secret)
    (admitted : List WireguardPeer) :
    publish wg svc secret admitted = (assessRollout wg svc secret admitted >>= Closing.close) := by
  simp only [publish, assessRollout, ask_bind, call_bind]
  congr 1
  funext answer
  cases answer with
  | error e => rfl
  | ok dep =>
    simp only [bind_assoc, pure_eq, done_bind, Closing.close, rolloutCondition]
    congr 1
    funext _
    split <;> rfl

theorem serve_eq (wg : Wireguard) (svc : Service) (admitted : List WireguardPeer) :
    serve publicHalf wg svc admitted =
      (assessServing publicHalf wg svc admitted >>= Closing.close) := by
  simp only [serve, assessServing, ask_bind, call_bind]
  congr 1
  funext answer
  cases answer with
  | ok secret => simp only [bind_assoc, publish_eq]
  | error e =>
    dsimp only
    split
    · simp only [bind_assoc, pure_eq, done_bind, Closing.close]
      exact (bind_done _).symm
    · rfl

/-- A pass writes the Wireguard's status at most once, and last. -/
theorem reconcile_assess (req : NamespacedName) :
    reconcile publicHalf req = (assess publicHalf req >>= Closing.close) := by
  simp only [reconcile, assess, ask_bind, call_bind]
  congr 1
  funext answer
  cases answer with
  | error e =>
    dsimp only
    split
    · simp only [bind_assoc, pure_eq, done_bind, Closing.close]
    · rfl
  | ok wg =>
    dsimp only
    split
    · rfl
    · simp only [bind_assoc]
      congr 1
      funext problem
      cases problem with
      | some problem => rfl
      | none =>
        simp only [call_bind]
        congr 1
        funext answer
        cases answer with
        | error e => rfl
        | ok svc =>
          dsimp only
          cases clusterIPOutside svc.name svc.clusterIP wg.spec.localCIDRs with
          | error msg => rfl
          | ok _ => simp only [bind_assoc, serve_eq]

end

section Conclusions
variable {S : Type} {env : Environment Call Answer S} {publicHalf : Wgtypes.Key → Wgtypes.Key}

/-- The calls, in order, of an assessment that got as far as the Deployment. -/
structure Assessed (env : Environment Call Answer S) (req : NamespacedName) (wg : Wireguard)
    (svc : Service)
    (secret : Secret) (dep : Deployment) (events : List (Event Call Answer)) : Prop where
  calls : ∃ checks peers syncs identities admitted s₁ s₂ s₃ s₄ s₅ s₆,
    events = ⟨.getWireguard req, .ok wg⟩ :: (checks ++
      ⟨.applyService (serviceForWireguard wg), .ok svc⟩ :: (peers ++
      ⟨.getSecret wg.key, .ok secret⟩ :: (syncs ++
      ⟨.applyDeployment (deploymentForWireguard wg), .ok dep⟩ :: identities))) ∧
    Trace env s₁ (specProblem wg) checks (.done none) s₂ ∧
    Trace env s₃ (reconcilePeers req wg) peers (.done admitted) s₄ ∧
    Trace env s₅ (syncSecret wg secret admitted) syncs (.done ()) s₆
  inside : clusterIPOutside svc.name svc.clusterIP wg.spec.localCIDRs = .ok ()

/-- What makes a pass report Degraded: the spec, a Secret that spec.gluetun.envFrom names,
an apply that fails, or the ClusterIP that the apiserver assigned. -/
inductive Troubled (wg : Wireguard) (events : List (Event Call Answer)) : Prop where
  | spec (problem : staticProblem wg ≠ none)
  | env (source : src ∈ wg.spec.gluetun.envFrom) (named : src.secretRef = some name)
      (read : ⟨.getSecret ⟨wg.nameSpace, name⟩, .ok secret⟩ ∈ events)
      (reserved : reservedInKeys src.namePrefix secret.data.keys ≠ "")
  | service (failed : ⟨.applyService (serviceForWireguard wg), .error e⟩ ∈ events)
  | outside (applied : ⟨.applyService (serviceForWireguard wg), .ok svc⟩ ∈ events)
      (refused : clusterIPOutside svc.name svc.clusterIP wg.spec.localCIDRs ≠ .ok ())
  | deployment (failed : ⟨.applyDeployment (deploymentForWireguard wg), .error e⟩ ∈ events)

theorem Troubled.mono (troubled : Troubled wg events) (more : events ⊆ events') :
    Troubled wg events' := by
  cases troubled with
  | spec problem => exact .spec problem
  | env source named read reserved => exact .env source named (more read) reserved
  | service failed => exact .service (more failed)
  | outside applied refused => exact .outside (more applied) refused
  | deployment failed => exact .deployment (more failed)

theorem envFromProblem_troubled {sources : List (EnvFromSource × Nat)}
    (inside : ∀ entry ∈ sources, entry.1 ∈ wg.spec.gluetun.envFrom)
    (run : Trace env s (envFromProblem wg sources) events (.done (some problem)) t) :
    Troubled wg events := by
  induction sources generalizing s events with
  | nil =>
    obtain ⟨impossible, -⟩ := run.returned
    contradiction
  | cons entry rest ih =>
    obtain ⟨src, i⟩ := entry
    obtain ⟨source, others⟩ := List.forall_mem_cons.mp inside
    unfold envFromProblem at run
    cases named : src.secretRef with
    | none =>
      simp only [named] at run
      exact ih others run
    | some name =>
      simp only [named, ask_bind] at run
      obtain ⟨answer, _, later, -, checking, rfl⟩ := run.call_returned
      cases answer with
      | error e =>
        dsimp only at checking
        split at checking
        · exact (ih others checking).mono (List.subset_cons_self _ _)
        · cases checking
      | ok secret =>
        dsimp only at checking
        split at checking
        · exact (ih others checking).mono (List.subset_cons_self _ _)
        · rename_i reserved
          exact .env source named List.mem_cons_self reserved

theorem specProblem_troubled (run : Trace env s (specProblem wg) events (.done (some problem)) t) :
    Troubled wg events := by
  unfold specProblem at run
  split at run
  · rename_i found
    exact .spec (by simp [found])
  · refine envFromProblem_troubled (fun entry member => ?_) run
    exact List.mem_of_getElem? (List.mem_zipIdx_iff_getElem?.mp member)

/-- What an assessment can conclude, and from which calls. -/
inductive Concludes (env : Environment Call Answer S) (req : NamespacedName)
    (events : List (Event Call Answer)) :
    Closing → Prop where
  | quiet (result : Result) : Concludes env req events (.quiet result)
  | progressing (fetched : events.head? = some ⟨.getWireguard req, .ok wg⟩)
      (unset : wg.status.status = "") :
      Concludes env req events (progressing wg)
  | degraded (fetched : events.head? = some ⟨.getWireguard req, .ok wg⟩)
      (started : wg.status.status ≠ "") (reason message : String) (troubled : Troubled wg events) :
      Concludes env req events (degraded wg reason message)
  | degrade (fetched : events.head? = some ⟨.getWireguard req, .ok wg⟩)
      (started : wg.status.status ≠ "") (err : ApiError) (reason : String)
      (troubled : Troubled wg events) : Concludes env req events (.degrade wg err reason)
  | rollout (assessed : Assessed env req wg svc secret dep events)
      (started : wg.status.status ≠ "") :
      Concludes env req events
        (.report wg (rolloutCondition dep) (some (identityOf svc secret)) .empty)

theorem assessRollout_concludes
    (run : Trace env s (assessRollout wg svc secret admitted) events (.done closing) t) :
    (∃ err reason, closing = .degrade wg err reason ∧ Troubled wg events) ∨
    ∃ dep identities, events =
      ⟨.applyDeployment (deploymentForWireguard wg), .ok dep⟩ :: identities ∧
      closing = .report wg (rolloutCondition dep) (some (identityOf svc secret)) .empty := by
  simp only [assessRollout, ask_bind] at run
  obtain ⟨answer, _, rest, -, applied, rfl⟩ := run.call_returned
  cases answer with
  | error e => exact .inl ⟨e, _, applied.returned.1, .deployment List.mem_cons_self⟩
  | ok dep =>
    obtain ⟨_, _, identities, _, -, last, rfl⟩ := applied.bind_returned
    obtain ⟨rfl, rfl⟩ := last.returned
    exact .inr ⟨dep, _, rfl, rfl⟩

theorem assess_concludes (run : Trace env s (assess publicHalf req) events (.done closing) t) :
    Concludes env req events closing := by
  simp only [assess, ask_bind] at run
  obtain ⟨answer, s₀, rest, -, fetching, rfl⟩ := run.call_returned
  cases answer with
  | error e =>
    dsimp only at fetching
    split at fetching
    · obtain ⟨_, _, _, _, -, last, -⟩ := fetching.bind_returned
      obtain ⟨rfl, -⟩ := last.returned
      exact .quiet _
    · cases fetching
  | ok wg =>
    dsimp only at fetching
    split at fetching
    · rename_i unset
      obtain ⟨rfl, -⟩ := fetching.returned
      exact .progressing rfl unset
    · rename_i started
      obtain ⟨problem, s₂, checks, later, checking, checked, rfl⟩ := fetching.bind_returned
      cases problem with
      | some problem =>
        obtain ⟨rfl, rfl⟩ := checked.returned
        refine .degraded rfl started _ _ ((specProblem_troubled checking).mono ?_)
        exact List.subset_cons_of_subset _ (List.subset_append_left _ _)
      | none =>
        obtain ⟨answer, s₃, later, -, applied, rfl⟩ := checked.call_returned
        cases answer with
        | error e =>
          obtain ⟨rfl, -⟩ := applied.returned
          exact .degrade rfl started _ _ (.service (e := e) (by simp))
        | ok svc =>
          dsimp only at applied
          split at applied
          · rename_i outside
            obtain ⟨rfl, -⟩ := applied.returned
            have refused : clusterIPOutside svc.name svc.clusterIP wg.spec.localCIDRs ≠ .ok () := by
              simp [outside]
            exact .degraded rfl started _ _ (.outside (by simp) refused)
          · rename_i inside
            obtain ⟨admitted, s₄, peers, later, reconciling, serving, rfl⟩ := applied.bind_returned
            simp only [assessServing, ask_bind] at serving
            obtain ⟨answer, s₅, later, -, reading, rfl⟩ := serving.call_returned
            cases answer with
            | error e =>
              dsimp only at reading
              split at reading
              · obtain ⟨_, _, _, _, -, last, -⟩ := reading.bind_returned
                obtain ⟨rfl, -⟩ := last.returned
                exact .quiet _
              · cases reading
            | ok secret =>
              obtain ⟨_, s₆, syncs, later, syncing, publishing, rfl⟩ := reading.bind_returned
              rcases assessRollout_concludes publishing with ⟨err, reason, rfl, troubled⟩ |
                ⟨dep, identities, rfl, rfl⟩
              · refine .degrade rfl started _ _ (troubled.mono fun event member => ?_)
                simp [member]
              · refine .rollout ⟨?_, inside⟩ started
                exact ⟨checks, peers, syncs, identities, admitted, _, _, _, _, _, _, rfl, checking,
                  reconciling, syncing⟩

/-- The Wireguard, condition and identity that are recorded at the end. -/
def Closing.reported : Closing → Option (Wireguard × Condition × Option ServerIdentity)
  | .quiet _ => none
  | .report wg cond identity _ => some (wg, cond, identity)
  | .degrade wg err reason => some (wg, condition conditionDegraded .true reason err.message, none)

/-- Closing makes the calls of one updateStatus at most. -/
theorem close_trace {closing : Closing} (run : Trace env s closing.close events outcome t) :
    (events = [] ∧ t = s) ∨ ∃ wg cond identity outcome', closing.reported =
      some (wg, cond, identity) ∧
      Trace env s (updateStatus wg cond identity) events outcome' t := by
  cases closing with
  | quiet result => cases run <;> exact .inl ⟨rfl, rfl⟩
  | report wg cond identity result =>
    right
    rcases run.bind_cases with ⟨part, -⟩ | ⟨_, part, -⟩ | ⟨ended, u, first, rest, part, last, rfl⟩
    · exact ⟨wg, cond, identity, _, rfl, part⟩
    · exact ⟨wg, cond, identity, _, rfl, part⟩
    · obtain ⟨rfl, rfl⟩ : rest = [] ∧ t = u := by cases ended <;> cases last <;> exact ⟨rfl, rfl⟩
      exact ⟨wg, cond, identity, _, rfl, by rwa [List.append_nil]⟩
  | degrade wg err reason =>
    right
    rcases run.bind_cases with ⟨part, -⟩ | ⟨_, part, -⟩ | ⟨_, u, first, rest, part, last, rfl⟩
    · exact ⟨wg, _, _, _, rfl, part⟩
    · exact ⟨wg, _, _, _, rfl, part⟩
    · obtain ⟨rfl, rfl⟩ : rest = [] ∧ t = u := by cases last <;> exact ⟨rfl, rfl⟩
      exact ⟨wg, _, _, _, rfl, by rwa [List.append_nil]⟩

/-- Whatever a pass does, it first assesses and then, if the assessment got to its end,
records what it concluded. -/
theorem pass_stages (run : Trace env s (reconcile publicHalf req) events outcome t) :
    (∃ outcome', Trace env s (assess publicHalf req) events outcome' t) ∨
    ∃ closing wg cond identity first rest u ended, Concludes env req first closing ∧
      closing.reported = some (wg, cond, identity) ∧
        Trace env s (assess publicHalf req) first (.done closing) u ∧
      Trace env u (updateStatus wg cond identity) rest ended t ∧ events = first ++ rest := by
  rw [reconcile_assess] at run
  rcases run.bind_cases with ⟨part, -⟩ | ⟨_, part, -⟩ | ⟨closing, u, first, rest, part, last, rfl⟩
  · exact .inl ⟨_, part⟩
  · exact .inl ⟨_, part⟩
  · rcases close_trace last with ⟨rfl, rfl⟩ | ⟨wg, cond, identity, ended, reported, recording⟩
    · exact .inl ⟨_, by rwa [List.append_nil]⟩
    · exact .inr ⟨closing, wg, cond, identity, first, rest, u, ended, assess_concludes part,
        reported, part, recording, rfl⟩

/-- The calls of an assessment write no Wireguard's status. -/
def SparesStatus : Call → Prop
  | .updateWireguardStatus _ => False
  | _ => True

theorem unguarded_sparesStatus : Unguarded SparesStatus := by constructor <;> intros <;> trivial

theorem assessServing_spares (wg : Wireguard) (svc : Service) (admitted : List WireguardPeer) :
    (assessServing publicHalf wg svc admitted).Safe
    (fun _ _ => True) SparesStatus fun _ => True := by
  simp only [assessServing, ask_bind, safe_call]
  refine ⟨trivial, fun answer _ => ?_⟩
  cases answer with
  | error e =>
    dsimp only
    split
    · exact (mintSecret_safe trivial publicHalf wg admitted fun _ => trivial).bind
        fun _ _ => trivial
    · trivial
  | ok secret =>
    refine (syncSecret_safe unguarded_sparesStatus wg secret admitted trivial).bind fun _ _ => ?_
    simp only [assessRollout, ask_bind, safe_call]
    refine ⟨trivial, fun answer _ => ?_⟩
    cases answer with
    | error e => trivial
    | ok dep => exact (syncPeerIdentity_safe wg _ admitted fun _ _ => trivial).bind fun _ _ => trivial

theorem assess_spares (publicHalf : Wgtypes.Key → Wgtypes.Key) (req : NamespacedName) :
    (assess publicHalf req).Safe (fun _ _ => True) SparesStatus fun _ => True := by
  simp only [assess, ask_bind, safe_call]
  refine ⟨trivial, fun answer _ => ?_⟩
  cases answer with
  | error e =>
    dsimp only
    split
    · exact (markPeersWireguardNotFound_safe trivial req fun _ _ _ _ _ _ _ => trivial).bind
        fun _ _ => trivial
    · trivial
  | ok wg =>
    dsimp only
    split
    · trivial
    · refine (specProblem_reads unguarded_sparesStatus.getSecret wg).bind fun problem _ => ?_
      cases problem with
      | some problem => trivial
      | none =>
        refine ⟨trivial, fun answer _ => ?_⟩
        cases answer with
        | error e => trivial
        | ok svc =>
          dsimp only
          split
          · trivial
          · have peers : (reconcilePeers req wg).Safe
              (fun _ _ => True) SparesStatus fun _ => True :=
              reconcilePeers_reads unguarded_sparesStatus.getSecret trivial req wg
                  fun current items _ _ =>
                (execute_safe _).weaken (by rintro request ⟨write, -, rfl⟩; trivial)
                  fun _ _ => trivial
            exact peers.bind fun admitted _ => assessServing_spares wg svc admitted

end Conclusions
end TunnelOperator.Controller
