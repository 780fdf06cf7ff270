import TunnelOperator.Controller.Gateway
import TunnelOperator.Library.Program

/-! internal/controller/wireguard_controller.go: one reconcile pass, as a program
over the calls it makes to the apiserver. Every call may be answered with an error,
which is a value where the source inspects it and ends the pass where the source
returns it. -/
namespace TunnelOperator.Controller
open Program Resources

structure Pod where
  nameSpace : String
  name : String
  deriving DecidableEq, Repr

/-- `applyService` and `applyDeployment` stand for applyOwned and applyDeployment as a
whole, `updatePod` for the write of the wgConfigLastUpdated annotation. -/
inductive Call where
  | getWireguard (key : NamespacedName)
  | getSecret (key : NamespacedName)
  | listPeers
  | updatePeerStatus (peer : WireguardPeer)
  | updateWireguardStatus (wg : Wireguard)
  | applyService (svc : Service)
  | applyDeployment (dep : Deployment)
  | createSecret (secret : Secret)
  | updateSecret (secret : Secret)
  | generatePrivateKey
  | listPods (nameSpace : String) (labels : List (String × String))
  | updatePod (pod : Pod)

/-- What a call returns when it succeeds. A status write returns the object as
written, so it tells the caller nothing new. -/
abbrev Reply : Call → Type
  | .getWireguard _ => Wireguard
  | .getSecret _ => Secret
  | .listPeers => List WireguardPeer
  | .updatePeerStatus _ => Unit
  | .updateWireguardStatus _ => Unit
  | .applyService _ => Service
  | .applyDeployment _ => Deployment
  | .createSecret _ => Unit
  | .updateSecret _ => Unit
  | .generatePrivateKey => Wgtypes.Key
  | .listPods .. => List Pod
  | .updatePod _ => Unit

abbrev Answer (request : Call) : Type := Except ApiError (Reply request)

abbrev Reconciler := Program Call Answer ApiError

/-- A call whose error ends the pass. -/
def demand (request : Call) : Reconciler (Reply request) := do
  match ← ask request with
  | .ok reply => return reply
  | .error e => .fail e

/-! Peers. -/

/-- The peers, in any namespace, whose gatewayKey is `req`. -/
def relatedPeers (req : NamespacedName) (peers : List WireguardPeer) : List WireguardPeer :=
  peers.filter fun peer => gatewayKey peer = req

def getWireguardPeers (req : NamespacedName) : Reconciler (List WireguardPeer) := do
  let peers ← demand .listPeers
  return relatedPeers req peers

/-- The keys of a state, a later entry of the same peer overwriting an earlier one. -/
def listedKeys (peers : List WireguardPeer) : ListedKeys :=
  peers.foldl (fun keys peer => Function.update keys peer.key peer.spec.publicKey) fun _ => ""

/-- What a Secret's state.json lists: nothing when it is missing or unreadable. -/
def secretKeys (secret : Secret) : ListedKeys :=
  match secret.data.stateJSON.bind StateText.unmarshal with
  | some state => listedKeys state.peers
  | none => fun _ => ""

def admittedKeys (wg : Wireguard) : Reconciler ListedKeys := do
  match ← ask (.getSecret wg.key) with
  | .ok secret => return secretKeys secret
  | .error e => if e.isNotFound then return fun _ => "" else .fail e

/-- `none` is success. A status write rejected by validation of the whole object is
logged and dropped. -/
def markPeerNotReady (peer : WireguardPeer) (nr : NotReady) : Reconciler (Option ApiError) := do
  if peerStatusMatches peer nr then return none
  match ← ask (.updatePeerStatus { peer with status := notReadyStatus peer nr }) with
  | .ok _ => return none
  | .error e => return if e.isInvalid then none else some e

/-- An error of a peer's own status write ends the pass unless skipPeerWrite says to
leave the peer to its next pass. -/
def orSkip : Option ApiError → Reconciler Unit
  | none => return ()
  | some e => if skipPeerWrite e then return () else .fail e

/-- Why wg cannot admit the peer: its namespace first, then its key. -/
def refusal (wg : Wireguard) (peer : WireguardPeer) : Option NotReady :=
  match namespaceNotAllowed wg peer with
  | some nr => some nr
  | none => admissionProblem peer

def admitPeers (wg : Wireguard) : List WireguardPeer → Reconciler (List WireguardPeer)
  | [] => return []
  | peer :: rest =>
    match refusal wg peer with
    | none => do
      let admitted ← admitPeers wg rest
      return peer :: admitted
    | some nr => do
      orSkip (← markPeerNotReady peer nr)
      admitPeers wg rest

/-- The loop of releaseLosers and of markPeersWireguardNotFound. -/
def markEach : List (WireguardPeer × NotReady) → Reconciler Unit
  | [] => return ()
  | (peer, nr) :: rest => do
    orSkip (← markPeerNotReady peer nr)
    markEach rest

def releaseLosers (conflict : ConflictLoser → NotReady) (losers : List ConflictLoser) :
    Reconciler Unit :=
  markEach (losers.map fun l => (l.peer, conflict l))

/-- An address the allocator could not have handed out on this server counts as
unallocated. -/
def clearUnusable (cidr4 : String) (peer : WireguardPeer) : WireguardPeer :=
  if peer.status.address ≠ "" ∧ !addressUsable peer.status.address cidr4 then
    { peer with status := { peer.status with address := "" } }
  else peer

/-- The peer as allocatePeers writes it. -/
def readied (peer : WireguardPeer) : WireguardPeer :=
  { peer with status := { peer.status with
    status := ready
    message := "Peer configured"
    conditions := removeStatusCondition peer.status.conditions conditionReady } }

def withAddress (peer : WireguardPeer) (ip : String) : WireguardPeer :=
  { peer with status := { peer.status with address := ip } }

/-- Already admitted and ready: nothing to write. -/
def settledReady (peer : WireguardPeer) : Bool :=
  peer.status.status = ready && (findStatusCondition peer.status.conditions conditionReady).isNone

def allocateEach (cidr4 : String) :
  List String → List WireguardPeer → Reconciler (List WireguardPeer)
  | _, [] => return []
  | usedIps4, peer :: rest =>
    if peer.status.address = "" then
      match Ipam.allocateIP cidr4 usedIps4 with
      | .error _ => do
        orSkip (← markPeerNotReady peer (addressPoolExhausted cidr4))
        allocateEach cidr4 usedIps4 rest
      | .ok ip => do
        -- The address stays reserved even when the write below is lost.
        let peer := readied (withAddress peer ip)
        match ← ask (.updatePeerStatus peer) with
        | .error e =>
          if skipPeerWrite e then allocateEach cidr4 (usedIps4 ++ [ip]) rest else .fail e
        | .ok _ => do
          let allocated ← allocateEach cidr4 (usedIps4 ++ [ip]) rest
          return peer :: allocated
    else if settledReady peer then do
      let allocated ← allocateEach cidr4 usedIps4 rest
      return peer :: allocated
    else do
      let peer := readied peer
      match ← ask (.updatePeerStatus peer) with
      | .error e =>
        -- An address the peer already held stays its address.
        if skipPeerWrite e then do
          let allocated ← allocateEach cidr4 usedIps4 rest
          return peer :: allocated
        else .fail e
      | .ok _ => do
        let allocated ← allocateEach cidr4 usedIps4 rest
        return peer :: allocated

def allocatePeers (cidr4 : String) (peers : List WireguardPeer) : Reconciler (List WireguardPeer) :=
  allocateEach cidr4 (Ipam.getUsedIPs cidr4 peers) peers

def reconcilePeers (req : NamespacedName) (wg : Wireguard) : Reconciler (List WireguardPeer) := do
  let current ← admittedKeys wg
  let peers ← getWireguardPeers req
  let admitted ← admitPeers wg peers
  let (admitted, keyLosers) := dedupePublicKeys admitted current
  releaseLosers (fun l => publicKeyConflict l.winner) keyLosers
  let cidr4 := effectivePeerCIDR4 wg
  let admitted := admitted.map (clearUnusable cidr4)
  let (keep, losers) := dedupeAddresses admitted
  releaseLosers (fun l => addressConflict l.peer.status.address l.winner) losers
  allocatePeers cidr4 keep

structure ServerIdentity where
  endpoint : String
  publicKey : String
  deriving DecidableEq, Repr

def carriesIdentity (wg : Wireguard) (id : ServerIdentity) (peer : WireguardPeer) : Bool :=
  peer.status.endpoint = id.endpoint && peer.status.serverPublicKey = id.publicKey &&
    peer.status.localCIDRs = wg.spec.localCIDRs

def withIdentity (wg : Wireguard) (id : ServerIdentity) (peer : WireguardPeer) : WireguardPeer :=
  { peer with status := { peer.status with
    endpoint := id.endpoint
    serverPublicKey := id.publicKey
    localCIDRs := wg.spec.localCIDRs } }

def syncPeerIdentity (wg : Wireguard) (id : ServerIdentity) : List WireguardPeer → Reconciler Unit
  | [] => return ()
  | peer :: rest =>
    if carriesIdentity wg id peer then syncPeerIdentity wg id rest
    else do
      match ← ask (.updatePeerStatus (withIdentity wg id peer)) with
      | .error e => if skipPeerWrite e then syncPeerIdentity wg id rest else .fail e
      | .ok _ => syncPeerIdentity wg id rest

def markPeersWireguardNotFound (req : NamespacedName) : Reconciler Unit := do
  let peers ← getWireguardPeers req
  markEach (peers.map fun peer => (peer, wireguardNotFound req.name req.nameSpace))

/-! The Wireguard itself. -/

/-- The status updateStatus writes over `latest`. A Ready condition, of either status,
also clears a Degraded one. -/
def recordedStatus (generation : Int) (latest : WireguardStatus) (cond : Condition)
    (identity : Option ServerIdentity) : WireguardStatus :=
  let cond := { cond with observedGeneration := generation }
  let conditions := setStatusCondition latest.conditions cond
  { conditions :=
      if cond.type = conditionReady then
        setStatusCondition conditions
          { type := conditionDegraded, status := .false, reason := "Reconciled"
            message := "All owned resources applied", observedGeneration := generation }
      else conditions
    status :=
      if cond.type = conditionReady then (if cond.status = .true then ready else pending)
      else if cond.type = conditionDegraded then error
      else pending
    message := cond.message
    endpoint := (identity.map (·.endpoint)).getD latest.endpoint
    publicKey := (identity.map (·.publicKey)).getD latest.publicKey }

def updateStatus (wg : Wireguard) (cond : Condition) (identity : Option ServerIdentity) :
    Reconciler (Option ApiError) := do
  match ← ask (.getWireguard wg.key) with
  | .error e => return if e.isNotFound then none else some e
  | .ok latest =>
    match ← ask (.updateWireguardStatus
        { latest with status := recordedStatus wg.generation latest.status cond identity }) with
    | .error e => return if e.isNotFound || e.isConflict then none else some e
    | .ok _ => return none

structure Result where
  /-- Seconds until the next pass, if one is asked for. -/
  requeueAfter : Option Nat
  deriving DecidableEq, Repr

def Result.empty : Result := ⟨none⟩
def Result.afterMinute : Result := ⟨some 60⟩

/-- The condition updateStatus is called with; it sets observedGeneration itself. -/
def condition (type : String) (status : ConditionStatus) (reason message : String) : Condition :=
  ⟨type, status, reason, message, 0⟩

def report (wg : Wireguard) (cond : Condition) (identity : Option ServerIdentity)
    (result : Result) :
    Reconciler Result := do
  match ← updateStatus wg cond identity with
  | some e => .fail e
  | none => return result

def failDegraded (wg : Wireguard) (err : ApiError) (reason : String) : Reconciler Result := do
  let _ ← updateStatus wg (condition conditionDegraded .true reason err.message) none
  .fail err

/-- A failed check, as the reason and message of a Degraded condition. -/
def problemOf (reason : String) : Except String Unit → Option (String × String)
  | .ok _ => none
  | .error message => some (reason, message)

/-- The checks of specProblem that read the spec alone. -/
def staticProblem (wg : Wireguard) : Option (String × String) :=
  let cidr4 := effectivePeerCIDR4 wg
  (problemOf reasonInvalidPeerCIDR (validatePeerCIDR cidr4)).or <|
  (problemOf reasonProbeAddressInPeerCIDR (probeAddressInPeerCIDR cidr4)).or <|
  (problemOf reasonInvalidLocalCIDRs (validateLocalCIDRs wg.spec.localCIDRs)).or <|
  (problemOf reasonPeerCIDROverlapsLocalCIDRs (peerCIDROverlap cidr4 wg.spec.localCIDRs)).or <|
  (problemOf reasonProbeAddressInLocalCIDRs (probeAddressInLocalCIDRs wg.spec.localCIDRs)).or <|
  let name := reservedInEnv wg.spec.gluetun.env
  if name = "" then none
  else some (reasonReservedGluetunEnv, "spec.gluetun.env sets " ++ name ++
    ", which the operator renders")

def envFromProblem (wg : Wireguard) :
  List (EnvFromSource × Nat) → Reconciler (Option (String × String))
  | [] => return none
  | (src, i) :: rest =>
    match src.secretRef with
    | none => envFromProblem wg rest
    | some name => do
      match ← ask (.getSecret ⟨wg.nameSpace, name⟩) with
      | .error e =>
        if e.isNotFound then envFromProblem wg rest
        else .fail (e.wrap ("read Secret " ++ name ++ " referenced by spec.gluetun.envFrom[" ++
          Nat.repr i ++ "]: "))
      | .ok secret =>
        let reserved := reservedInKeys src.namePrefix secret.data.keys
        if reserved = "" then envFromProblem wg rest
        else return some (reasonReservedGluetunEnv, "Secret " ++ name ++
          ", referenced by spec.gluetun.envFrom[" ++
          Nat.repr i ++ "], sets " ++ reserved ++ ", which the operator renders")

/-- `none` for a spec the operator can render. -/
def specProblem (wg : Wireguard) : Reconciler (Option (String × String)) :=
  match staticProblem wg with
  | some problem => return some problem
  | none => envFromProblem wg wg.spec.gluetun.envFrom.zipIdx

/-- net.JoinHostPort. -/
def joinHostPort (host port : String) : String :=
  if host.toList.contains ':' then "[" ++ host ++ "]:" ++ port else host ++ ":" ++ port

def touchPods : List Pod → Reconciler Unit
  | [] => return ()
  | pod :: rest => do
    match ← ask (.updatePod pod) with
    | .ok _ => touchPods rest
    | .error e => if e.isConflict then touchPods rest else .fail e

/-- The Secret exists: state.json is brought up to date under the keys it holds. -/
def syncSecret (wg : Wireguard) (secret : Secret) (admitted : List WireguardPeer) :
    Reconciler Unit := do
  let privateKey := secret.data.privateKey.getD ""
  let b := StateText.marshal (desiredState wg privateKey admitted)
  if secret.data.stateJSON = some b then return ()
  let publicKey := secret.data.publicKey.getD ""
  demand (.updateSecret (secretForWireguard wg b privateKey publicKey))
  let pods ← demand (.listPods wg.nameSpace (labelsForWireguard wg.name))
  touchPods pods

def publish (wg : Wireguard) (svc : Service) (secret : Secret) (admitted : List WireguardPeer) :
    Reconciler Result := do
  match ← ask (.applyDeployment (deploymentForWireguard wg)) with
  | .error e => failDegraded wg e "DeploymentApplyFailed"
  | .ok dep => do
    let identity : ServerIdentity :=
      ⟨joinHostPort svc.clusterIP (Nat.repr wireguardPort), secret.data.publicKey.getD ""⟩
    syncPeerIdentity wg identity admitted
    let msg := rolloutProblem dep
    if msg ≠ "" then
      report wg (condition conditionReady .false reasonDeploymentNotReady msg)
        (some identity) .empty
    else
      report wg (condition conditionReady .true "Active" "VPN is active!") (some identity) .empty

section
-- wgtypes.Key.PublicKey: the X25519 public half of a private key.
variable (publicHalf : Wgtypes.Key → Wgtypes.Key)

/-- The Secret does not exist: a key pair is minted, and the pass ends with the create. -/
def mintSecret (wg : Wireguard) (admitted : List WireguardPeer) : Reconciler Result := do
  let key ← demand .generatePrivateKey
  let privateKey := key.string
  let publicKey := (publicHalf key).string
  let b := StateText.marshal (desiredState wg privateKey admitted)
  demand (.createSecret (secretForWireguard wg b privateKey publicKey))
  return .empty

def serve (wg : Wireguard) (svc : Service) (admitted : List WireguardPeer) : Reconciler Result := do
  match ← ask (.getSecret wg.key) with
  | .ok secret => do
    syncSecret wg secret admitted
    publish wg svc secret admitted
  | .error e => if e.isNotFound then mintSecret publicHalf wg admitted else .fail e

def reconcile (req : NamespacedName) : Reconciler Result := do
  match ← ask (Call.getWireguard req) with
  | .error e =>
    if e.isNotFound then do
      markPeersWireguardNotFound req
      return .empty
    else .fail e
  | .ok wg =>
    if wg.status.status = "" then
      report wg (condition conditionProgressing .true "FetchingStatus" "Fetching Wireguard status")
        none .empty
    else do
      match ← specProblem wg with
      | some (reason, msg) => report wg (condition conditionDegraded .true reason msg) none .afterMinute
      | none => do
        match ← ask (Call.applyService (serviceForWireguard wg)) with
        | .error e => failDegraded wg e "ServiceApplyFailed"
        | .ok svc =>
          match clusterIPOutside svc.name svc.clusterIP wg.spec.localCIDRs with
          | .error msg =>
            report wg (condition conditionDegraded .true reasonClusterIPOutsideLocalCIDRs msg) none
              .afterMinute
          | .ok _ => do
            let admitted ← reconcilePeers req wg
            serve publicHalf wg svc admitted

end
end TunnelOperator.Controller
