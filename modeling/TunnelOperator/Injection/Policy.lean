import TunnelOperator.Standard.Admission
import TunnelOperator.Injection.ClientBinding

/-! internal/controller/injection.go: the policy that injects the sidecar, and
config/admission: the backstop that refuses a labelled pod without it. -/
namespace TunnelOperator.Injection
open Admission
open Resources (labelComponent)

def injectPolicyName : String := "tunnel-operator-inject"
def admissionGroup : String := "admissionregistration.k8s.io"
def inClusterConfigDir : String := "/var/run/secrets/kubernetes.io/serviceaccount"
def sidecarContainer : String := "wg-client"
def volumeKey : String := "wg-key"
def volumeToken : String := "wg-token"

/-- A container, with what the policies read of it apart from its other members. -/
structure Container where
  name : String
  restartPolicy : Option String
  rest : String → Option Json

def Container.json (container : Container) : Json :=
  .obj fun key =>
    if key = "name" then some (.str container.name)
    else if key = "restartPolicy" then container.restartPolicy.map .str
    else container.rest key

/-- A pod as the apiserver hands it to a policy; a list may be absent or empty. -/
structure PodObject where
  labels : Labels
  hostNetwork : Option Bool
  initContainers : Option (List Container)
  volumes : Option (List Json)
  /-- The other members of the spec, of the metadata, and those beside them. -/
  rest : String → Option Json
  metadata : String → Option Json
  beside : String → Option Json

def PodObject.specMember (pod : PodObject) (key : String) : Option Json :=
  if key = "hostNetwork" then pod.hostNetwork.map .bool
  else if key = "initContainers" then
    pod.initContainers.map fun containers => .arr (containers.map (·.json))
  else if key = "volumes" then pod.volumes.map .arr
  else pod.rest key

def PodObject.metadataMember (pod : PodObject) (key : String) : Option Json :=
  if key = "labels" then some (.object (pod.labels.map fun (name, value) => (name, .str value)))
  else pod.metadata key

def PodObject.member (pod : PodObject) (key : String) : Option Json :=
  if key = "spec" then some (.obj pod.specMember)
  else if key = "metadata" then some (.obj pod.metadataMember)
  else pod.beside key

def PodObject.json (pod : PodObject) : Json := .obj pod.member

def downward (name field : String) : Json :=
  .object [("name", .str name),
    ("valueFrom", .object [("fieldRef", .object [("fieldPath", .str field)])])]

def injectedSidecar (image gateway : String) : Container × List Json :=
  ({ name := sidecarContainer
     restartPolicy := some "Always"
     rest := fun key => List.lookup key [
      ("image", .str image),
      ("args", .arr [.str "client", .str "--wireguard", .str gateway]),
      ("env", .arr [
        downward "POD_NAME" "metadata.name",
        downward "POD_NAMESPACE" "metadata.namespace",
        downward "POD_UID" "metadata.uid",
        downward "POD_IP" "status.podIP",
        downward "HOST_IP" "status.hostIP"]),
      ("resources", .object []),
      ("securityContext", .object [("capabilities", .object [("add", .arr [.str "NET_ADMIN"])])]),
      ("volumeMounts", .arr [
        .object [("name", .str volumeKey), ("mountPath", .str "/var/run/wireguard")],
        .object [("name", .str volumeToken), ("mountPath", .str inClusterConfigDir),
          ("readOnly", .bool true)]]),
      ("startupProbe", .object [
        ("exec", .object [("command", .arr [.str "agent", .str "client", .str "--check"])]),
        ("periodSeconds", .int 2),
        ("failureThreshold", .int 90)])] },
   [.object [("name", .str volumeKey), ("emptyDir", .object [("medium", .str "Memory")])],
    .object [("name", .str volumeToken), ("projected", .object [("sources", .arr [
      .object [("serviceAccountToken", .object [("path", .str "token")])],
      .object [("configMap", .object [("name", .str "kube-root-ca.crt"),
        ("items", .arr [.object [("key", .str "ca.crt"), ("path", .str "ca.crt")]])])],
      .object [("downwardAPI", .object [("items", .arr [.object [("path", .str "namespace"),
        ("fieldRef", .object [("fieldPath", .str "metadata.namespace")])]])])]])])]])

def podsRule : ResourceRule := ⟨[""], ["v1"], ["CREATE"], ["pods"]⟩

def injectMatchResources : MatchResources where
  objectSelector := {
    matchLabels := [(labelEnabled, "true")]
    matchExpressions := [⟨labelComponent, .doesNotExist, []⟩] }
  namespaceSelector := {
    matchLabels := []
    matchExpressions := [⟨"kubernetes.io/metadata.name", .notIn, [excludedNamespace]⟩] }

/-- `object.spec`. -/
def objectSpec : Cel := .select (.var "object") "spec"

def initContainersOf : Cel := .select objectSpec "initContainers"

/-- The condition not-yet-injected. -/
def notYetInjected : Cel :=
  .or (.not (.has objectSpec "initContainers"))
    (.not (.exists initContainersOf "c" (.eq (.select (.var "c") "name") sidecarContainer)))

def injectMutation : Cel :=
  .plus
    (.ite (.has objectSpec "volumes")
      (.map (.select (.var "variables") "volumes") "v" (.jsonPatch "add" "/spec/volumes/-" (.var "v")))
      (.single (.jsonPatch "add" "/spec/volumes" (.select (.var "variables") "volumes"))))
    (.ite (.has objectSpec "initContainers")
      (.single (.jsonPatch "add" "/spec/initContainers/0" (.select (.var "variables") "sidecar")))
      (.single (.jsonPatch "add" "/spec/initContainers" (.single (.select (.var "variables") "sidecar")))))

/-- `version` is v1 or v1beta1. The sidecar and the volumes are rendered as CEL literals. -/
def renderInjectPolicy (version : String) (sidecar : Container) (volumes : List Json) :
    MutatingPolicy × Binding :=
  ({ metadata := ⟨admissionGroup ++ "/" ++ version, "MutatingAdmissionPolicy", injectPolicyName,
      [(labelManagedBy, managedByValue)]⟩
     failurePolicy := .fail
     reinvocationPolicy := .ifNeeded
     resourceRules := [podsRule]
     matchConditions := [("not-yet-injected", notYetInjected)]
     celVariables := [("sidecar", .lit sidecar.json), ("volumes", .lit (.arr volumes))]
     mutations := [injectMutation] },
   { metadata := ⟨admissionGroup ++ "/" ++ version, "MutatingAdmissionPolicyBinding", injectPolicyName,
      [(labelManagedBy, managedByValue)]⟩
     policyName := injectPolicyName
     matchResources := injectMatchResources })

/-! config/admission/require_injection_policy.yaml and require_injection_binding.yaml. -/

def noHostNetwork : Cel :=
  .or (.not (.has objectSpec "hostNetwork")) (.not (.select objectSpec "hostNetwork"))

def sidecarFirst : Cel :=
  .and (.and (.and (.and (.has objectSpec "initContainers") (.gt (.size initContainersOf) 0))
    (.eq (.select (.item initContainersOf 0) "name") "wg-client"))
    (.has (.item initContainersOf 0) "restartPolicy"))
    (.eq (.select (.item initContainersOf 0) "restartPolicy") "Always")

def requireInjectionPolicy : ValidatingPolicy where
  metadata :=
    ⟨"admissionregistration.k8s.io/v1", "ValidatingAdmissionPolicy",
      "operator-require-injection", []⟩
  failurePolicy := .fail
  resourceRules := [⟨[""], ["v1"], ["CREATE"], ["pods"]⟩]
  validations := [
    (noHostNetwork, "hostNetwork pods cannot be tunnelled"),
    (sidecarFirst,
      "the pod is labelled tunnel-operator.io/enabled=true but was not injected with the " ++
        "WireGuard sidecar. Check that exactly one Wireguard in the operator's namespace is " ++
        "annotated tunnel-operator.io/default=true, that the operator is running, and that the " ++
        "cluster serves MutatingAdmissionPolicy (Kubernetes 1.34 and 1.35 need the beta " ++
        "enabled). The operator's log names the cause.")]

def requireInjectionBinding : Binding where
  metadata :=
    ⟨"admissionregistration.k8s.io/v1", "ValidatingAdmissionPolicyBinding",
      "operator-require-injection", []⟩
  policyName := "operator-require-injection"
  matchResources := {
    objectSelector := {
      matchLabels := [("tunnel-operator.io/enabled", "true")]
      matchExpressions := [⟨"tunnel-operator.io/component", .doesNotExist, []⟩] }
    namespaceSelector := {
      matchLabels := []
      matchExpressions := [⟨"kubernetes.io/metadata.name", .notIn, ["kube-system"]⟩] } }

end TunnelOperator.Injection
