import TunnelOperator.Controller.PlanProofs

/-! A pass in three stages: the Wireguard is read and checked and its Service applied,
the peers are reconciled, and the result is served. The second and third stage run
only for a Wireguard the operator can render. -/
namespace TunnelOperator.Controller
open Program Resources

inductive Prepared where
  | ended (result : Result)
  | rendered (wg : Wireguard) (svc : Service)

/-- Reconcile up to its call of reconcilePeers. -/
def prepare (req : NamespacedName) : Reconciler Prepared := do
  match ← ask (Call.getWireguard req) with
  | .error e =>
    if e.isNotFound then do
      markPeersWireguardNotFound req
      return .ended .empty
    else .fail e
  | .ok wg =>
    if wg.status.status = "" then do
      let result ← report wg
        (condition conditionProgressing .true "FetchingStatus" "Fetching Wireguard status") none
          .empty
      return .ended result
    else do
      match ← specProblem wg with
      | some (reason, msg) => do
        let result ← report wg (condition conditionDegraded .true reason msg) none .afterMinute
        return .ended result
      | none => do
        match ← ask (Call.applyService (serviceForWireguard wg)) with
        | .error e => do
          let result ← failDegraded wg e "ServiceApplyFailed"
          return .ended result
        | .ok svc =>
          match clusterIPOutside svc.name svc.clusterIP wg.spec.localCIDRs with
          | .error msg => do
            let result ← report wg
              (condition conditionDegraded .true reasonClusterIPOutsideLocalCIDRs msg) none
                .afterMinute
            return .ended result
          | .ok _ => return .rendered wg svc

theorem reconcile_eq (publicHalf : Wgtypes.Key → Wgtypes.Key) (req : NamespacedName) :
    reconcile publicHalf req = (prepare req >>= fun
      | .ended result => pure result
      | .rendered wg svc => reconcilePeers req wg >>= serve publicHalf wg svc) := by
  simp only [reconcile, prepare, ask_bind, call_bind]
  congr 1
  funext answer
  cases answer with
  | error e =>
    dsimp only
    split <;> simp [bind_assoc]
  | ok wg =>
    dsimp only
    split
    · simp only [bind_assoc, pure_eq, done_bind]
      exact (bind_done _).symm
    · simp only [bind_assoc]
      congr 1
      funext problem
      cases problem with
      | some problem =>
        simp only [bind_assoc, pure_eq, done_bind]
        exact (bind_done _).symm
      | none =>
        simp only [call_bind]
        congr 1
        funext answer
        cases answer with
        | error e =>
          simp only [bind_assoc, pure_eq, done_bind]
          exact (bind_done _).symm
        | ok svc =>
          dsimp only
          cases clusterIPOutside svc.name svc.clusterIP wg.spec.localCIDRs with
          | error msg =>
            simp only [bind_assoc, pure_eq, done_bind]
            exact (bind_done _).symm
          | ok _ => rfl

/-! The calls of the first and the last stage. -/

section Safe
variable {expected : (request : Call) → Answer request → Prop} {allowed : Call → Prop}
    {cond : Condition}

/-- Nothing is asked of the calls that neither write a Secret nor a peer's status. -/
structure Permits (allowed : Call → Prop) : Prop where
  getWireguard : ∀ key, allowed (.getWireguard key)
  getSecret : ∀ key, allowed (.getSecret key)
  listPeers : allowed .listPeers
  updateWireguardStatus : ∀ wg, allowed (.updateWireguardStatus wg)
  applyService : ∀ svc, allowed (.applyService svc)
  applyDeployment : ∀ dep, allowed (.applyDeployment dep)
  generatePrivateKey : allowed .generatePrivateKey
  listPods : ∀ nameSpace labels, allowed (.listPods nameSpace labels)
  updatePod : ∀ pod, allowed (.updatePod pod)

/-- Nothing is asked of the calls that write neither a Secret nor a status. -/
structure Unguarded (allowed : Call → Prop) : Prop where
  getWireguard : ∀ key, allowed (.getWireguard key)
  getSecret : ∀ key, allowed (.getSecret key)
  listPeers : allowed .listPeers
  applyService : ∀ svc, allowed (.applyService svc)
  applyDeployment : ∀ dep, allowed (.applyDeployment dep)
  generatePrivateKey : allowed .generatePrivateKey
  listPods : ∀ nameSpace labels, allowed (.listPods nameSpace labels)
  updatePod : ∀ pod, allowed (.updatePod pod)

theorem Permits.unguarded (permits : Permits allowed) : Unguarded allowed :=
  ⟨permits.getWireguard, permits.getSecret, permits.listPeers, permits.applyService,
    permits.applyDeployment, permits.generatePrivateKey, permits.listPods, permits.updatePod⟩

/-- The condition and identity may be recorded over whatever status is found. -/
def Records (expected : (request : Call) → Answer request → Prop) (allowed : Call → Prop)
    (wg : Wireguard) (cond : Condition) (identity : Option ServerIdentity) : Prop :=
  ∀ latest, expected (.getWireguard wg.key) (.ok latest) → allowed (.updateWireguardStatus
    { latest with status := recordedStatus wg.generation latest.status cond identity })

theorem Permits.records (permits : Permits allowed) : Records expected allowed wg cond identity :=
  fun _ _ => permits.updateWireguardStatus _

theorem demand_safe {request : Call} (permitted : allowed request) :
    (demand request).Safe expected allowed fun reply => expected request (.ok reply) := by
  simp only [demand, ask_bind, safe_call]
  refine ⟨permitted, fun answer known => ?_⟩
  cases answer with
  | ok reply => exact known
  | error e => simp

theorem updateStatus_records (unguarded : Unguarded allowed)
    (records : Records expected allowed wg cond identity) :
    (updateStatus wg cond identity).Safe expected allowed fun _ => True := by
  simp only [updateStatus, ask_bind, safe_call]
  refine ⟨unguarded.getWireguard _, fun answer known => ?_⟩
  cases answer with
  | error e => simp
  | ok latest =>
    refine ⟨records latest known, fun answer _ => ?_⟩
    cases answer <;> simp

theorem report_records (unguarded : Unguarded allowed)
    (records : Records expected allowed wg cond identity)
    (result : Result) : (report wg cond identity result).Safe expected allowed fun _ => True := by
  refine (updateStatus_records unguarded records).bind fun outcome _ => ?_
  cases outcome <;> simp

theorem failDegraded_records (unguarded : Unguarded allowed)
    (records : ∀ message, Records expected allowed wg
      (condition conditionDegraded .true reason message) none)
    (err : ApiError) (post : Result → Prop) :
    (failDegraded wg err reason).Safe expected allowed post :=
  (updateStatus_records unguarded (records _)).bind fun _ _ => by simp

theorem envFromProblem_safe (reads : ∀ key, allowed (.getSecret key)) (wg : Wireguard)
    (sources : List (EnvFromSource × Nat)) :
    (envFromProblem wg sources).Safe expected allowed fun _ => True := by
  induction sources with
  | nil => simp [envFromProblem]
  | cons entry rest ih =>
    obtain ⟨src, i⟩ := entry
    unfold envFromProblem
    cases src.secretRef with
    | none => exact ih
    | some name =>
      simp only [ask_bind, safe_call]
      refine ⟨reads _, fun answer _ => ?_⟩
      cases answer with
      | error e =>
        dsimp only
        split
        · exact ih
        · simp
      | ok secret =>
        dsimp only
        split
        · exact ih
        · simp

theorem specProblem_reads (reads : ∀ key, allowed (.getSecret key)) (wg : Wireguard) :
    (specProblem wg).Safe expected allowed fun problem => problem = none →
      staticProblem wg = none := by
  unfold specProblem
  cases checked : staticProblem wg with
  | some problem => simp
  | none => exact (envFromProblem_safe reads wg _).weaken (fun _ => id) fun _ _ _ => rfl

theorem specProblem_safe (permits : Permits allowed) (wg : Wireguard) :
    (specProblem wg).Safe expected allowed fun problem => problem = none →
      staticProblem wg = none :=
  specProblem_reads permits.getSecret wg

theorem getWireguardPeers_safe (lists : allowed .listPeers) (req : NamespacedName) :
    (getWireguardPeers req).Safe expected allowed fun peers => ∃ items,
      expected .listPeers (.ok items) ∧ peers = relatedPeers req items :=
  (demand_safe lists).bind fun items known => ⟨items, known, rfl⟩

/-- What the first stage has established when it ends with a rendered Wireguard. -/
structure Renders (wg : Wireguard) (svc : Service) : Prop where
  started : wg.status.status ≠ ""
  spec : staticProblem wg = none
  inside : clusterIPOutside svc.name svc.clusterIP wg.spec.localCIDRs = .ok ()

theorem markPeersWireguardNotFound_safe (lists : allowed .listPeers) (req : NamespacedName)
    (marks : ∀ items, expected .listPeers (.ok items) → ∀ peer ∈ items, gatewayKey peer = req →
      ∀ write, notReadyWrite peer (wireguardNotFound req.name req.nameSpace) = some write →
        allowed (.updatePeerStatus write)) :
    (markPeersWireguardNotFound req).Safe expected allowed fun _ => True := by
  refine (getWireguardPeers_safe lists req).bind fun peers known => ?_
  obtain ⟨items, listed, rfl⟩ := known
  refine (markEach_safe _).weaken ?_ fun _ _ => trivial
  rintro request ⟨write, member, rfl⟩
  simp only [relatedPeers, List.mem_filterMap, List.mem_map, List.mem_filter,
    decide_eq_true_eq] at member
  obtain ⟨_, ⟨peer, ⟨inside, ours⟩, rfl⟩, written⟩ := member
  exact marks items listed peer inside ours write written

theorem prepare_records (unguarded : Unguarded allowed) (req : NamespacedName)
    (progresses : ∀ wg, expected (.getWireguard req) (.ok wg) → wg.status.status = "" →
      Records expected allowed wg
      (condition conditionProgressing .true "FetchingStatus" "Fetching Wireguard status") none)
    (degrades : ∀ wg reason message, expected (.getWireguard req) (.ok wg) → wg.status.status ≠ "" →
      Records expected allowed wg (condition conditionDegraded .true reason message) none)
    (marks : (∃ e, e.isNotFound = true ∧ expected (.getWireguard req) (.error e)) →
      ∀ items, expected .listPeers (.ok items) → ∀ peer ∈ items, gatewayKey peer = req →
        ∀ write, notReadyWrite peer (wireguardNotFound req.name req.nameSpace) = some write →
          allowed (.updatePeerStatus write)) :
    (prepare req).Safe expected allowed fun prepared => ∀ wg svc, prepared = .rendered wg svc →
      expected (.getWireguard req) (.ok wg) ∧ Renders wg svc ∧
        expected (.applyService (serviceForWireguard wg)) (.ok svc) := by
  simp only [prepare, ask_bind, safe_call]
  refine ⟨unguarded.getWireguard req, fun answer known => ?_⟩
  have ended : ∀ {program : Reconciler Result}, (program.Safe expected allowed fun _ => True) →
      (program >>= fun result => pure (Prepared.ended result)).Safe expected allowed
        fun prepared => ∀ wg svc, prepared = .rendered wg svc →
          expected (.getWireguard req) (.ok wg) ∧ Renders wg svc ∧
            expected (.applyService (serviceForWireguard wg)) (.ok svc) :=
    fun safe => safe.bind fun _ _ => by simp
  cases answer with
  | error e =>
    dsimp only
    split
    · rename_i missing
      exact (markPeersWireguardNotFound_safe unguarded.listPeers req
        (marks ⟨e, missing, known⟩)).bind fun _ _ => by simp
    · simp
  | ok wg =>
    dsimp only
    split
    · rename_i fresh
      exact ended (report_records unguarded (progresses wg known fresh) _)
    · rename_i started
      have degraded := fun reason message => degrades wg reason message known started
      refine (specProblem_reads unguarded.getSecret wg).bind fun problem checked => ?_
      cases problem with
      | some problem => exact ended (report_records unguarded (degraded _ _) _)
      | none =>
        refine ⟨unguarded.applyService _, fun answer applied => ?_⟩
        cases answer with
        | error e => exact ended (failDegraded_records unguarded (degraded _) e _)
        | ok svc =>
          dsimp only
          cases inside : clusterIPOutside svc.name svc.clusterIP wg.spec.localCIDRs with
          | error msg => exact ended (report_records unguarded (degraded _ _) _)
          | ok _ =>
            rintro _ _ ⟨⟩
            exact ⟨known, ⟨started, checked rfl, inside⟩, applied⟩

theorem prepare_safe (permits : Permits allowed) (req : NamespacedName)
    (marks : (∃ e, e.isNotFound = true ∧ expected (.getWireguard req) (.error e)) →
      ∀ items, expected .listPeers (.ok items) → ∀ peer ∈ items, gatewayKey peer = req →
        ∀ write, notReadyWrite peer (wireguardNotFound req.name req.nameSpace) = some write →
          allowed (.updatePeerStatus write)) :
    (prepare req).Safe expected allowed fun prepared => ∀ wg svc, prepared = .rendered wg svc →
      expected (.getWireguard req) (.ok wg) ∧ Renders wg svc ∧
        expected (.applyService (serviceForWireguard wg)) (.ok svc) :=
  prepare_records permits.unguarded req (fun _ _ _ => permits.records)
    (fun _ _ _ _ _ => permits.records) marks

theorem admittedKeys_safe (reads : ∀ key, allowed (.getSecret key)) (wg : Wireguard) :
    (admittedKeys wg).Safe expected allowed fun current =>
      (∃ secret, expected (.getSecret wg.key) (.ok secret) ∧ current = secretKeys secret) ∨
        (∃ e, e.isNotFound = true ∧ expected (.getSecret wg.key) (.error e) ∧
          current = fun _ => "") := by
  simp only [admittedKeys, ask_bind, safe_call]
  refine ⟨reads _, fun answer known => ?_⟩
  cases answer with
  | ok secret => exact .inl ⟨secret, known, rfl⟩
  | error e =>
    dsimp only
    split
    · rename_i missing
      exact .inr ⟨e, missing, known, rfl⟩
    · simp

theorem touchPods_safe (touches : ∀ pod, allowed (.updatePod pod)) (pods : List Pod) :
    (touchPods pods).Safe expected allowed fun _ => True := by
  induction pods with
  | nil => simp [touchPods]
  | cons pod rest ih =>
    simp only [touchPods, ask_bind, safe_call]
    refine ⟨touches pod, fun answer _ => ?_⟩
    cases answer with
    | ok reply => exact ih
    | error e =>
      dsimp only
      split
      · exact ih
      · simp

theorem syncPeerIdentity_safe (wg : Wireguard) (id : ServerIdentity) (admitted : List WireguardPeer)
    (syncs : ∀ peer ∈ admitted, allowed (.updatePeerStatus (withIdentity wg id peer))) :
    (syncPeerIdentity wg id admitted).Safe expected allowed fun _ => True := by
  induction admitted with
  | nil => simp [syncPeerIdentity]
  | cons peer rest ih =>
    have later := ih fun p member => syncs p (List.mem_cons_of_mem _ member)
    unfold syncPeerIdentity
    split
    · exact later
    · simp only [ask_bind, safe_call]
      refine ⟨syncs peer List.mem_cons_self, fun answer _ => ?_⟩
      cases answer with
      | ok reply => exact later
      | error e =>
        dsimp only
        split
        · exact later
        · simp

/-- The identity a pass publishes for the Secret it read. -/
def identityOf (svc : Service) (secret : Secret) : ServerIdentity :=
  ⟨joinHostPort svc.clusterIP (Nat.repr wireguardPort), secret.data.publicKey.getD ""⟩

theorem publish_records (unguarded : Unguarded allowed) (wg : Wireguard) (svc : Service)
    (secret : Secret) (admitted : List WireguardPeer)
    (degrades : ∀ reason message,
      Records expected allowed wg (condition conditionDegraded .true reason message) none)
    (readies : ∀ status reason message,
      Records expected allowed wg (condition conditionReady status reason message)
      (some (identityOf svc secret)))
    (syncs : ∀ peer ∈ admitted,
      allowed (.updatePeerStatus (withIdentity wg (identityOf svc secret) peer))) :
    (publish wg svc secret admitted).Safe expected allowed fun _ => True := by
  simp only [publish, ask_bind, safe_call]
  refine ⟨unguarded.applyDeployment _, fun answer _ => ?_⟩
  cases answer with
  | error e => exact failDegraded_records unguarded (degrades _) e _
  | ok dep =>
    refine (syncPeerIdentity_safe wg _ admitted syncs).bind fun _ _ => ?_
    split <;> exact report_records unguarded (readies _ _ _) _

theorem publish_safe (permits : Permits allowed) (wg : Wireguard) (svc : Service) (secret : Secret)
    (admitted : List WireguardPeer)
    (syncs : ∀ peer ∈ admitted,
      allowed (.updatePeerStatus (withIdentity wg (identityOf svc secret) peer))) :
    (publish wg svc secret admitted).Safe expected allowed fun _ => True :=
  publish_records permits.unguarded wg svc secret admitted (fun _ _ => permits.records)
    (fun _ _ _ => permits.records) syncs

/-- The Secret a pass renders from the one it read. -/
def refreshed (wg : Wireguard) (secret : Secret) (admitted : List WireguardPeer) : Secret :=
  secretForWireguard wg (.marshal (desiredState wg (secret.data.privateKey.getD "") admitted))
    (secret.data.privateKey.getD "") (secret.data.publicKey.getD "")

theorem syncSecret_safe (unguarded : Unguarded allowed) (wg : Wireguard) (secret : Secret)
    (admitted : List WireguardPeer)
    (updates : allowed (.updateSecret (refreshed wg secret admitted))) :
    (syncSecret wg secret admitted).Safe expected allowed fun _ => True := by
  unfold syncSecret
  dsimp only
  split
  · simp
  · refine (demand_safe updates).bind fun _ _ =>
      (demand_safe (unguarded.listPods _ _)).bind fun pods _ => ?_
    exact touchPods_safe unguarded.updatePod pods

/-- The Secret a pass renders when it finds none. -/
def minted (publicHalf : Wgtypes.Key → Wgtypes.Key) (wg : Wireguard) (key : Wgtypes.Key)
    (admitted : List WireguardPeer) : Secret :=
  secretForWireguard wg (.marshal (desiredState wg key.string admitted)) key.string
    (publicHalf key).string

theorem mintSecret_safe (generates : allowed .generatePrivateKey)
    (publicHalf : Wgtypes.Key → Wgtypes.Key) (wg : Wireguard) (admitted : List WireguardPeer)
    (creates : ∀ key, allowed (.createSecret (minted publicHalf wg key admitted))) :
    (mintSecret publicHalf wg admitted).Safe expected allowed fun _ => True := by
  unfold mintSecret
  refine (demand_safe generates).bind fun key _ => ?_
  exact (demand_safe (creates key)).bind fun _ _ => by simp

theorem serve_records (unguarded : Unguarded allowed) (publicHalf : Wgtypes.Key → Wgtypes.Key)
    (wg : Wireguard) (svc : Service) (admitted : List WireguardPeer)
    (degrades : ∀ reason message,
      Records expected allowed wg (condition conditionDegraded .true reason message) none)
    (readies : ∀ secret, expected (.getSecret wg.key) (.ok secret) → ∀ status reason message,
      Records expected allowed wg (condition conditionReady status reason message)
        (some (identityOf svc secret)))
    (syncs : ∀ secret, expected (.getSecret wg.key) (.ok secret) → ∀ peer ∈ admitted,
      allowed (.updatePeerStatus (withIdentity wg (identityOf svc secret) peer)))
    (updates : ∀ secret, expected (.getSecret wg.key) (.ok secret) →
      allowed (.updateSecret (refreshed wg secret admitted)))
    (creates : ∀ key, allowed (.createSecret (minted publicHalf wg key admitted))) :
    (serve publicHalf wg svc admitted).Safe expected allowed fun _ => True := by
  simp only [serve, ask_bind, safe_call]
  refine ⟨unguarded.getSecret _, fun answer known => ?_⟩
  cases answer with
  | ok secret =>
    exact (syncSecret_safe unguarded wg secret admitted (updates secret known)).bind fun _ _ =>
      publish_records unguarded wg svc secret admitted degrades (readies secret known)
        (syncs secret known)
  | error e =>
    dsimp only
    split
    · exact mintSecret_safe unguarded.generatePrivateKey publicHalf wg admitted creates
    · simp

theorem serve_safe (permits : Permits allowed) (publicHalf : Wgtypes.Key → Wgtypes.Key)
    (wg : Wireguard) (svc : Service) (admitted : List WireguardPeer)
    (syncs : ∀ secret, expected (.getSecret wg.key) (.ok secret) → ∀ peer ∈ admitted,
      allowed (.updatePeerStatus (withIdentity wg (identityOf svc secret) peer)))
    (updates : ∀ secret, expected (.getSecret wg.key) (.ok secret) →
      allowed (.updateSecret (refreshed wg secret admitted)))
    (creates : ∀ key, allowed (.createSecret (minted publicHalf wg key admitted))) :
    (serve publicHalf wg svc admitted).Safe expected allowed fun _ => True :=
  serve_records permits.unguarded publicHalf wg svc admitted (fun _ _ => permits.records)
    (fun _ _ _ _ _ => permits.records) syncs updates creates

/-- The middle stage: it reads what is listed and which peers there are, and carries
out the plan for them. -/
theorem reconcilePeers_reads (reads : ∀ key, allowed (.getSecret key)) (lists : allowed .listPeers)
    (req : NamespacedName) (wg : Wireguard) {post : List WireguardPeer → Prop}
    (planned : ∀ current items,
      ((∃ secret, expected (.getSecret wg.key) (.ok secret) ∧ current = secretKeys secret) ∨
        (∃ e, e.isNotFound = true ∧ expected (.getSecret wg.key) (.error e) ∧
          current = fun _ => "")) →
      expected .listPeers (.ok items) →
      (execute (effectivePeerCIDR4 wg) (plan wg current (relatedPeers req items))).Safe expected
        allowed post) :
    (reconcilePeers req wg).Safe expected allowed post := by
  rw [reconcilePeers_eq]
  refine (admittedKeys_safe reads wg).bind fun current known => ?_
  refine (getWireguardPeers_safe lists req).bind fun peers listed => ?_
  obtain ⟨items, answered, rfl⟩ := listed
  exact planned current items known answered

theorem reconcilePeers_safe (permits : Permits allowed) (req : NamespacedName) (wg : Wireguard)
    {post : List WireguardPeer → Prop}
    (planned : ∀ current items,
      ((∃ secret, expected (.getSecret wg.key) (.ok secret) ∧ current = secretKeys secret) ∨
        (∃ e, e.isNotFound = true ∧ expected (.getSecret wg.key) (.error e) ∧
          current = fun _ => "")) →
      expected .listPeers (.ok items) →
      (execute (effectivePeerCIDR4 wg) (plan wg current (relatedPeers req items))).Safe expected
        allowed post) :
    (reconcilePeers req wg).Safe expected allowed post :=
  reconcilePeers_reads permits.getSecret permits.listPeers req wg planned

end Safe
end TunnelOperator.Controller
