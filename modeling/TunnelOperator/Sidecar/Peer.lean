import TunnelOperator.Sidecar.Tunnel
import TunnelOperator.Library.Program

/-! internal/sidecar/peer.go and runner.step of sidecar.go: how a pod registers its
WireguardPeer, and when its tunnel is applied. -/
namespace TunnelOperator.Sidecar
open Program

structure OwnerReference where
  apiVersion : String
  kind : String
  name : String
  uid : String
  /-- A pointer in the source. -/
  controller : Option Bool
  deriving DecidableEq, Repr

/-- A WireguardPeer with the metadata that tells who owns it. -/
structure OwnedPeer where
  peer : WireguardPeer
  uid : String
  ownerReferences : List OwnerReference
  deriving DecidableEq, Repr

/-- metav1.GetControllerOf. -/
def getControllerOf (obj : OwnedPeer) : Option OwnerReference :=
  obj.ownerReferences.find? fun ref => ref.controller.getD false

structure Config where
  wireguard : String
  wireguardNamespace : String
  podName : String
  podNamespace : String
  podUID : String
  deriving DecidableEq, Repr

def Config.key (cfg : Config) : NamespacedName := ⟨cfg.podNamespace, cfg.podName⟩

inductive PeerAction where
  | create | keep | replace | refuse
  deriving DecidableEq, Repr

/-- Built without UID, generation, timestamp and status: the apiserver assigns them. -/
def desiredPeer (cfg : Config) (publicKey : String) : OwnedPeer where
  peer := {
    name := cfg.podName
    nameSpace := cfg.podNamespace
    generation := 0
    creationTimestamp := 0
    spec := ⟨publicKey, cfg.wireguard, cfg.wireguardNamespace⟩
    status := .empty }
  uid := ""
  ownerReferences := [⟨"v1", "Pod", cfg.podName, cfg.podUID, some true⟩]

def decidePeer (existing : Option OwnedPeer) (want : OwnedPeer) : PeerAction :=
  match existing with
  | none => .create
  | some existing =>
    match getControllerOf existing with
    | none => .refuse
    | some ctl =>
      if ctl.apiVersion ≠ "v1" ∨ ctl.kind ≠ "Pod" then .refuse
      else if some ctl.uid ≠ (getControllerOf want).map (·.uid) then .replace
      else if existing.peer.spec.publicKey ≠ want.peer.spec.publicKey ∨
          existing.peer.spec.wireguardRef ≠ want.peer.spec.wireguardRef ∨
          existing.peer.spec.wireguardNamespace ≠ want.peer.spec.wireguardNamespace then .replace
      else .keep

/-- `apply` is the datapath's Apply. -/
inductive SidecarCall where
  | getPeer (key : NamespacedName)
  | deletePeer (key : NamespacedName) (uid : String)
  | createPeer (obj : OwnedPeer)
  | apply (key : Wgtypes.Key) (t : Tunnel)

abbrev SidecarAnswer : SidecarCall → Type
  | .getPeer _ => Except ApiError OwnedPeer
  | .deletePeer .. => Except ApiError Unit
  | .createPeer _ => Except ApiError Unit
  | .apply .. => Except String Unit

/-- What a pass of the sidecar can fail with. -/
inductive StepError where
  | api (e : ApiError)
  | unowned (message : String)
  | registered (message : String)
  | tunnel (e : TunnelError)
  | datapath (message : String)
  deriving DecidableEq

abbrev Registrar := Program SidecarCall SidecarAnswer StepError

/-- A peer that is named after the pod: the read of ensurePeer. -/
def existingPeer (key : NamespacedName) : Registrar (Option OwnedPeer) := do
  match ← ask (SidecarCall.getPeer key) with
  | .ok existing => return some existing
  | .error e =>
    if e.isNotFound then return none
    else .fail (.api (e.wrap ("get WireguardPeer " ++ key.string ++ ": ")))

/-- The delete of a stale peer, pinned to the UID read. -/
def deleteStalePeer (key : NamespacedName) (existing : Option OwnedPeer) : Registrar Unit := do
  match ← ask (SidecarCall.deletePeer key ((existing.map (·.uid)).getD "")) with
  | .ok _ => return ()
  | .error e =>
    if e.isNotFound || e.isConflict then return ()
    else .fail (.api (e.wrap ("delete stale WireguardPeer " ++ key.string ++ ": ")))

def createWanted (key : NamespacedName) (want : OwnedPeer) : Registrar Unit := do
  match ← ask (SidecarCall.createPeer want) with
  | .ok _ => return ()
  | .error e =>
    if e.reason = .alreadyExists then return ()
    else .fail (.api (e.wrap ("create WireguardPeer " ++ key.string ++ ": ")))

/-- The peer when it was already this pod's, and nothing after it was created or
replaced. -/
def ensurePeer (cfg : Config) (publicKey : String) : Registrar (Option OwnedPeer) := do
  let existing ← existingPeer cfg.key
  let want := desiredPeer cfg publicKey
  match decidePeer existing want with
  | .keep => return existing
  | .refuse => .fail (.unowned ("WireguardPeer " ++ cfg.key.string ++
      " exists and no Pod controls it, so this pod cannot register under its name"))
  | .replace => do
    deleteStalePeer cfg.key existing
    createWanted cfg.key want
    return none
  | .create => do
    createWanted cfg.key want
    return none

section
-- wgtypes.Key.PublicKey: the X25519 public half of a private key.
variable (publicHalf : Wgtypes.Key → Wgtypes.Key)

/-- runner.step. -/
def step (cfg : Config) (key : Wgtypes.Key) : Registrar Unit := do
  match ← ensurePeer cfg (publicHalf key).string with
  | none => .fail (.registered ("waiting for the operator: WireguardPeer " ++ cfg.key.string ++
    " registered"))
  | some obj =>
    match desiredTunnel obj.peer with
    | .error e => .fail (.tunnel e)
    | .ok t => do
      match ← ask (SidecarCall.apply key t) with
      | .ok _ => return ()
      | .error message => .fail (.datapath message)

end
end TunnelOperator.Sidecar
