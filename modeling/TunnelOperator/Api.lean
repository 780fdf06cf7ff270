import Mathlib.Data.List.Basic
import Mathlib.Data.String.Basic

/-! The custom resources (api/v1alpha1) and what the operator uses of the Kubernetes
object model: names, conditions, Secrets, and the errors an API call can return.
Fields that no modelled function reads or writes are left out, and a map is the list of
its entries in the order of their keys. -/
namespace TunnelOperator

structure NamespacedName where
  nameSpace : String
  name : String
  deriving DecidableEq, Repr

def NamespacedName.string (key : NamespacedName) : String := key.nameSpace ++ "/" ++ key.name

inductive ConditionStatus where
  | true | false | unknown
  deriving DecidableEq, Repr

structure Condition where
  type : String
  status : ConditionStatus
  reason : String
  message : String
  observedGeneration : Int
  deriving DecidableEq, Repr

def conditionReady : String := "Ready"
def conditionProgressing : String := "Progressing"
def conditionDegraded : String := "Degraded"

/-! The helpers of apimachinery's api/meta. -/

def findStatusCondition (conditions : List Condition) (type : String) : Option Condition :=
  conditions.find? (·.type = type)

/-- The first condition of that type is replaced, or the condition is appended. -/
def setStatusCondition : List Condition → Condition → List Condition
  | [], new => [new]
  | old :: rest, new =>
    if old.type = new.type then new :: rest else old :: setStatusCondition rest new

def removeStatusCondition (conditions : List Condition) (type : String) : List Condition :=
  conditions.filter (·.type ≠ type)

theorem find_setStatusCondition (conditions : List Condition) (new : Condition) :
    findStatusCondition (setStatusCondition conditions new) new.type = some new := by
  induction conditions with
  | nil => simp [setStatusCondition, findStatusCondition]
  | cons old rest ih =>
    unfold setStatusCondition
    split
    · simp [findStatusCondition]
    · rename_i differs
      simpa [findStatusCondition, differs] using ih

theorem find_removeStatusCondition (conditions : List Condition) (type : String) :
    findStatusCondition (removeStatusCondition conditions type) type = none := by
  simp [findStatusCondition, removeStatusCondition]

/-! api/v1alpha1/wireguardpeer_types.go -/

def pending : String := "pending"
def error : String := "error"
def ready : String := "ready"

structure WireguardPeerSpec where
  publicKey : String
  wireguardRef : String
  wireguardNamespace : String
  deriving DecidableEq, Repr

structure WireguardPeerStatus where
  status : String
  message : String
  address : String
  endpoint : String
  serverPublicKey : String
  localCIDRs : List String
  conditions : List Condition
  deriving DecidableEq, Repr

/-- The status of an object that was just created: the apiserver drops any status
its creator sends. -/
def WireguardPeerStatus.empty : WireguardPeerStatus := ⟨"", "", "", "", "", [], []⟩

structure WireguardPeer where
  name : String
  nameSpace : String
  generation : Int
  creationTimestamp : Int
  spec : WireguardPeerSpec
  status : WireguardPeerStatus
  deriving DecidableEq, Repr

def WireguardPeer.key (peer : WireguardPeer) : NamespacedName := ⟨peer.nameSpace, peer.name⟩

/-- Everything of a peer that a status write leaves alone. -/
def WireguardPeer.object (peer : WireguardPeer) : WireguardPeer := { peer with status := .empty }

/-! api/v1alpha1/wireguard_types.go -/

inductive FromNamespaces where
  | all | same | unset
  deriving DecidableEq, Repr

structure AllowedNamespaces where
  from_ : FromNamespaces
  deriving DecidableEq, Repr

/-- corev1.EnvVarSource: a key of a Secret or of a ConfigMap, or a field of the pod. -/
inductive EnvVarSource where
  | secretKeyRef (name key : String)
  | configMapKeyRef (name key : String)
  | fieldRef (path : String)
  deriving DecidableEq, Repr

structure EnvVar where
  name : String
  value : String
  valueFrom : Option EnvVarSource
  deriving DecidableEq, Repr

/-- A source of gluetun variables: the name of a Secret or of a ConfigMap. -/
structure EnvFromSource where
  namePrefix : String
  secretRef : Option String
  configMapRef : Option String
  deriving DecidableEq, Repr

/-- Quantities by resource name. -/
structure ResourceRequirements where
  limits : List (String × String)
  requests : List (String × String)
  deriving DecidableEq, Repr

def ResourceRequirements.empty : ResourceRequirements := ⟨[], []⟩

structure Toleration where
  key : String
  operator : String
  value : String
  effect : String
  tolerationSeconds : Option Int
  deriving DecidableEq, Repr

structure GluetunSpec where
  env : List EnvVar
  envFrom : List EnvFromSource
  resources : ResourceRequirements
  deriving DecidableEq, Repr

def GluetunSpec.empty : GluetunSpec := ⟨[], [], .empty⟩

structure WireguardPodSpec where
  resources : ResourceRequirements
  deriving DecidableEq, Repr

structure WireguardSpec where
  peerCIDR : String
  localCIDRs : List String
  gluetun : GluetunSpec
  nodeSelector : List (String × String)
  tolerations : List Toleration
  agent : WireguardPodSpec
  allowedNamespaces : Option AllowedNamespaces
  deriving DecidableEq, Repr

structure WireguardStatus where
  status : String
  message : String
  endpoint : String
  publicKey : String
  conditions : List Condition
  deriving DecidableEq, Repr

def WireguardStatus.empty : WireguardStatus := ⟨"", "", "", "", []⟩

structure Wireguard where
  name : String
  nameSpace : String
  generation : Int
  spec : WireguardSpec
  status : WireguardStatus
  deriving DecidableEq, Repr

def Wireguard.key (wg : Wireguard) : NamespacedName := ⟨wg.nameSpace, wg.name⟩

def Wireguard.object (wg : Wireguard) : Wireguard := { wg with status := .empty }

/-! internal/agent: the content of state.json. -/

structure State where
  server : Wireguard
  serverPrivateKey : String
  peers : List WireguardPeer
  deriving DecidableEq, Repr

/-- The bytes of a state.json, seen through encoding/json: the text Marshal writes
for a State, or any other text together with what Unmarshal makes of it. Marshal
is injective and Unmarshal undoes it, so two values are the same bytes exactly when
they are equal. -/
inductive StateText where
  | marshal (state : State)
  | other (text : String) (parsed : Option State)
  deriving DecidableEq, Repr

def StateText.unmarshal : StateText → Option State
  | .marshal state => some state
  | .other _ parsed => parsed

/-- A Secret's data by key: the operator's own three keys and all others. -/
structure SecretData where
  stateJSON : Option StateText
  privateKey : Option String
  publicKey : Option String
  other : List (String × String)
  deriving DecidableEq, Repr

def SecretData.keys (data : SecretData) : List String :=
  (data.stateJSON.map fun _ => "state.json").toList ++
    (data.privateKey.map fun _ => "privateKey").toList ++
    (data.publicKey.map fun _ => "publicKey").toList ++ data.other.map (·.1)

structure Secret where
  name : String
  nameSpace : String
  labels : List (String × String)
  /-- The object that controls the Secret. -/
  controller : Option NamespacedName
  data : SecretData
  deriving DecidableEq, Repr

def Secret.key (secret : Secret) : NamespacedName := ⟨secret.nameSpace, secret.name⟩

/-! The errors of an API call, as apimachinery's api/errors tells them apart. -/

inductive StatusReason where
  | conflict | notFound | invalid | alreadyExists | other
  deriving DecidableEq, Repr

structure ApiError where
  reason : StatusReason
  message : String
  deriving DecidableEq, Repr

def ApiError.isConflict (e : ApiError) : Bool := e.reason = .conflict
def ApiError.isNotFound (e : ApiError) : Bool := e.reason = .notFound
def ApiError.isInvalid (e : ApiError) : Bool := e.reason = .invalid

/-- Wrapping with %w adds text and keeps the reason. -/
def ApiError.wrap (text : String) (e : ApiError) : ApiError :=
  { e with message := text ++ e.message }

end TunnelOperator
