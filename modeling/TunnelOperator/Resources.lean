import TunnelOperator.Api

/-! internal/resources: the objects the operator renders for a Wireguard, and of their
status what the reconciler reads back. SetOwnerReference fails only for a type outside
the scheme or an owner in another namespace, neither of which occurs, so the builders
are total. -/
namespace TunnelOperator.Resources

def wireguardPort : Nat := 51820
def httpPort : Nat := 8080
def egressInterface : String := "tun0"
def wgInterface : String := "wg0"
def tunnelMTU : Nat := 1320
def gluetunHealthAddress : String := "127.0.0.1:9999"
def gluetunImage : String :=
  "ghcr.io/qdm12/gluetun:v3.41.3@sha256:" ++
    "fa19cc76b2af13d57a8d3dc3066f2ada061b1c761b8aecf989b3877c0486e027"
def gluetunRuleTable : Nat := 51820
def peerProbeAddress : String := "192.0.2.1"
def userspaceImplementation : String := "wireguard-go"
def labelComponent : String := "tunnel-operator.io/component"
def componentGateway : String := "gateway"

def reservedGluetunEnv (localCIDRs : List String) : List EnvVar :=
  [⟨"VPN_TYPE", "wireguard", none⟩,
   ⟨"VPN_INTERFACE", egressInterface, none⟩,
   ⟨"FIREWALL_ENABLED_DISABLING_IT_SHOOTS_YOU_IN_YOUR_FOOT", "on", none⟩,
   ⟨"FIREWALL_INPUT_PORTS", Nat.repr wireguardPort ++ "," ++ Nat.repr httpPort, none⟩,
   ⟨"FIREWALL_OUTBOUND_SUBNETS", String.intercalate "," localCIDRs, none⟩,
   ⟨"HEALTH_SERVER_ADDRESS", gluetunHealthAddress, none⟩,
   ⟨"WIREGUARD_MTU", Nat.repr tunnelMTU, none⟩]

def labelsForWireguard (name : String) : List (String × String) :=
  [("app", "wireguard"), ("instance", name)]

/-- SecretBuilder.ForWireguard: exactly three keys, whatever the Secret held before. -/
def secretForWireguard (wg : Wireguard) (state : StateText) (privateKey publicKey : String) :
    Secret where
  name := wg.name
  nameSpace := wg.nameSpace
  labels := labelsForWireguard wg.name
  controller := some wg.key
  data := ⟨some state, some privateKey, some publicKey, []⟩

structure ServicePort where
  name : String
  protocol : String
  port : Nat
  targetPort : Nat
  deriving DecidableEq, Repr

structure Service where
  name : String
  nameSpace : String
  labels : List (String × String)
  controller : Option NamespacedName
  selector : List (String × String)
  ports : List ServicePort
  type : String
  /-- Assigned by the apiserver; never rendered. -/
  clusterIP : String
  deriving DecidableEq, Repr

def serviceForWireguard (wg : Wireguard) : Service where
  name := wg.name ++ "-svc"
  nameSpace := wg.nameSpace
  labels := labelsForWireguard wg.name
  controller := some wg.key
  selector := labelsForWireguard wg.name
  ports := [⟨"wireguard", "UDP", wireguardPort, wireguardPort⟩]
  type := "ClusterIP"
  clusterIP := ""

/-! internal/resources/deployment.go -/

/-- The agent's image and pull policy are the operator's own flags, the same for every
Wireguard and every pass. -/
inductive Image where
  | agent
  | pinned (image : String)
  deriving DecidableEq, Repr

structure SecurityContext where
  privileged : Option Bool
  readOnlyRootFilesystem : Option Bool
  allowPrivilegeEscalation : Option Bool
  addedCapabilities : List String
  deriving DecidableEq, Repr

structure ContainerPort where
  containerPort : Nat
  name : String
  protocol : String
  deriving DecidableEq, Repr

inductive ProbeHandler where
  | httpGet (port : Nat) (path : String)
  | tcpSocket (port : Nat)
  deriving DecidableEq, Repr

structure Probe where
  handler : ProbeHandler
  timeoutSeconds : Nat
  periodSeconds : Nat
  deriving DecidableEq, Repr

structure VolumeMount where
  name : String
  mountPath : String
  deriving DecidableEq, Repr

structure Container where
  name : String
  image : Image
  securityContext : SecurityContext
  command : List String
  args : List String
  ports : List ContainerPort
  env : List EnvVar
  envFrom : List EnvFromSource
  resources : ResourceRequirements
  readinessProbe : Option Probe
  livenessProbe : Option Probe
  volumeMounts : List VolumeMount
  postStart : List String
  deriving DecidableEq, Repr

inductive VolumeSource where
  | emptyDir
  | secret (name : String)
  deriving DecidableEq, Repr

structure Volume where
  name : String
  source : VolumeSource
  deriving DecidableEq, Repr

structure PodTemplate where
  labels : List (String × String)
  nodeSelector : List (String × String)
  tolerations : List Toleration
  seccompProfile : String
  automountServiceAccountToken : Bool
  volumes : List Volume
  initContainers : List Container
  containers : List Container
  deriving DecidableEq, Repr

structure Deployment where
  name : String
  nameSpace : String
  labels : List (String × String)
  controller : Option NamespacedName
  generation : Int
  replicas : Option Int
  strategy : String
  selector : List (String × String)
  template : PodTemplate
  observedGeneration : Int
  readyReplicas : Int
  updatedReplicas : Int
  deriving DecidableEq, Repr

def agentContainer (wg : Wireguard) (readOnlyRootFilesystem allowPrivilegeEscalation : Bool) :
    Container where
  name := "agent"
  image := .agent
  securityContext :=
    ⟨none, some readOnlyRootFilesystem, some allowPrivilegeEscalation, ["NET_ADMIN"]⟩
  command :=
    ["agent",
     "--v", "11",
     "--wg-iface", wgInterface,
     "--wg-listen-port", Nat.repr wireguardPort,
     "--state", "/tmp/wireguard/state.json",
     "--wg-userspace-implementation-fallback", userspaceImplementation]
  args := []
  ports := [⟨wireguardPort, "wireguard", "UDP"⟩, ⟨httpPort, "http", "TCP"⟩]
  env := []
  envFrom := []
  resources := wg.spec.agent.resources
  readinessProbe := some ⟨.httpGet httpPort "/health", 5, 0⟩
  livenessProbe := some ⟨.tcpSocket httpPort, 0, 5⟩
  volumeMounts := [⟨"socket", "/var/run/wireguard/"⟩, ⟨"config", "/tmp/wireguard/"⟩]
  postStart := []

def gluetunContainer (wg : Wireguard) : Container where
  name := "gluetun"
  image := .pinned gluetunImage
  securityContext := ⟨none, none, none, ["NET_ADMIN"]⟩
  command := []
  args := []
  ports := []
  env := reservedGluetunEnv wg.spec.localCIDRs ++ wg.spec.gluetun.env
  envFrom := wg.spec.gluetun.envFrom
  resources := wg.spec.gluetun.resources
  readinessProbe := none
  livenessProbe := none
  volumeMounts := []
  postStart :=
    ["/bin/sh", "-c",
     "(ip rule del table " ++ Nat.repr gluetunRuleTable ++ "; ip -6 rule del table " ++
       Nat.repr gluetunRuleTable ++ ") || true"]

def ipForwardInitContainer : Container where
  name := "sysctl"
  image := .agent
  securityContext := ⟨some true, none, none, []⟩
  command := ["/bin/sh"]
  args := ["-c", "echo 1 > /proc/sys/net/ipv4/ip_forward"]
  ports := []
  env := []
  envFrom := []
  resources := .empty
  readinessProbe := none
  livenessProbe := none
  volumeMounts := []
  postStart := []

/-- DeploymentBuilder.ForWireguard. Generation and status are the apiserver's. -/
def deploymentForWireguard (wg : Wireguard) : Deployment where
  name := wg.name ++ "-dep"
  nameSpace := wg.nameSpace
  labels := labelsForWireguard wg.name
  controller := some wg.key
  generation := 0
  replicas := some 1
  strategy := "Recreate"
  selector := labelsForWireguard wg.name
  template :=
    { labels := labelsForWireguard wg.name ++ [(labelComponent, componentGateway)]
      nodeSelector := wg.spec.nodeSelector
      tolerations := wg.spec.tolerations
      seccompProfile := "RuntimeDefault"
      automountServiceAccountToken := false
      volumes := [⟨"socket", .emptyDir⟩, ⟨"config", .secret wg.name⟩]
      initContainers := [ipForwardInitContainer]
      containers := [agentContainer wg true false, gluetunContainer wg] }
  observedGeneration := 0
  readyReplicas := 0
  updatedReplicas := 0

end TunnelOperator.Resources
