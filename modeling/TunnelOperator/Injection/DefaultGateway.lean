import TunnelOperator.Injection.Policy
import TunnelOperator.Library.Program
import Mathlib.Data.List.Sort

/-! internal/controller/injection.go: the choice of the default gateway, and the pass of
InjectionPolicyReconciler that keeps the injection policy in step with it. -/
namespace TunnelOperator.Injection
open Admission Program

def annotationDefault : String := "tunnel-operator.io/default"

/-- A Wireguard, with what the choice reads of it. -/
structure AnnotatedWireguard where
  nameSpace : String
  name : String
  annotations : Labels
  deriving DecidableEq, Repr

/-- The names of the Wireguards whose annotation counts, in the order of the list. -/
def defaults (list : List AnnotatedWireguard) (operatorNS : String) : List String :=
  (list.filter fun wg => wg.annotations.at annotationDefault = "true" &&
    wg.nameSpace = operatorNS).map (·.name)

def defaultGateway (list : List AnnotatedWireguard) (operatorNS : String) :
    Except String NamespacedName :=
  match defaults list operatorNS with
  | [] => .error ("no Wireguard in namespace " ++ operatorNS ++ " is annotated " ++
    annotationDefault ++ "=true")
  | [name] => .ok ⟨operatorNS, name⟩
  | names => .error (Nat.repr names.length ++ " Wireguards in namespace " ++ operatorNS ++
      " are annotated " ++
      annotationDefault ++ "=true: " ++ ", ".intercalate (names.insertionSort (· ≤ ·)))

/-- `discover` is ServerResourcesForGroupVersion, and lists names of resources. The deletes
name the version and delete the object of injectPolicyName. -/
inductive PolicyCall where
  | discover (groupVersion : String)
  | listWireguards
  | applyPolicy (policy : MutatingPolicy)
  | applyBinding (binding : Binding)
  | deleteBinding (version : String)
  | deletePolicy (version : String)

abbrev PolicyAnswer : PolicyCall → Type
  | .discover _ => Except ApiError (List String)
  | .listWireguards => Except ApiError (List AnnotatedWireguard)
  | .applyPolicy _ | .applyBinding _ | .deleteBinding _ | .deletePolicy _ => Except ApiError Unit

abbrev PolicyReconciler := Program PolicyCall PolicyAnswer ApiError

inductive PolicyResult where
  /-- Ask again after policyRecheck. -/
  | recheck
  | settled
  deriving DecidableEq, Repr

/-- The first of the versions that serves the policies, or the empty one. -/
def servedPolicyVersion : List String → PolicyReconciler String
  | [] => return ""
  | version :: others => do
    match ← ask (PolicyCall.discover (admissionGroup ++ "/" ++ version)) with
    | .ok names =>
      if names.contains "mutatingadmissionpolicies" then return version
      else servedPolicyVersion others
    | .error e =>
      if e.isNotFound then servedPolicyVersion others
      else .fail (e.wrap ("discover " ++ admissionGroup ++ "/" ++ version ++ ": "))

def policyVersions : List String := ["v1", "v1beta1"]

/-- A call of applyForced or Delete whose error ends the pass. A delete of what is not
there is none. -/
def orEnd (text : String) (ignoreNotFound : Bool) : Except ApiError Unit → PolicyReconciler Unit
  | .ok _ => return ()
  | .error e => if ignoreNotFound && e.isNotFound then return () else .fail (e.wrap text)

def deleteInjectPolicy (version : String) : PolicyReconciler Unit := do
  orEnd ("delete MutatingAdmissionPolicyBinding " ++ injectPolicyName ++ ": ") true
    (← ask (PolicyCall.deleteBinding version))
  orEnd ("delete MutatingAdmissionPolicy " ++ injectPolicyName ++ ": ") true
    (← ask (PolicyCall.deletePolicy version))

/-- The policy and its binding for a gateway. -/
def injectionFor (image version : String) (gateway : NamespacedName) : MutatingPolicy × Binding :=
  let sidecar := injectedSidecar image gateway.string
  renderInjectPolicy version sidecar.1 sidecar.2

def applyInjectPolicy (objects : MutatingPolicy × Binding) : PolicyReconciler Unit := do
  orEnd ("apply MutatingAdmissionPolicy /" ++ injectPolicyName ++ ": ") false
    (← ask (PolicyCall.applyPolicy objects.1))
  orEnd ("apply MutatingAdmissionPolicyBinding /" ++ injectPolicyName ++ ": ") false
    (← ask (PolicyCall.applyBinding objects.2))

def settleInjection (image operatorNS version : String) (list : List AnnotatedWireguard) :
    PolicyReconciler Unit :=
  match defaultGateway list operatorNS with
  | .error _ => deleteInjectPolicy version
  | .ok gateway => applyInjectPolicy (injectionFor image version gateway)

/-- InjectionPolicyReconciler.Reconcile. -/
def reconcileInjection (image operatorNS : String) : PolicyReconciler PolicyResult := do
  let version ← servedPolicyVersion policyVersions
  if version = "" then return .recheck
  match ← ask PolicyCall.listWireguards with
  | .error e => .fail (e.wrap "list Wireguards: ")
  | .ok list => do
    settleInjection image operatorNS version list
    return .settled

end TunnelOperator.Injection
