import TunnelOperator.Resources
import TunnelOperator.Library.Program

/-! internal/controller/injection_rbac.go: the RoleBinding that lets the sidecars of a
namespace register their peers. -/
namespace TunnelOperator.Injection
open Program
open Resources (labelComponent)

abbrev Labels := List (String × String)

/-- Indexing a Go map: a missing key reads as the empty string. -/
def Labels.at (labels : Labels) (key : String) : String := (labels.lookup key).getD ""

def Labels.has (labels : Labels) (key : String) : Bool := (labels.lookup key).isSome

/-- A map with one entry set. -/
def Labels.set (labels : Labels) (key value : String) : Labels :=
  if labels.lookup key = some value then labels else (key, value) :: labels.filter (·.1 ≠ key)

def labelEnabled : String := "tunnel-operator.io/enabled"
def labelManagedBy : String := "app.kubernetes.io/managed-by"
def managedByValue : String := "tunnel-operator"
def clientRoleName : String := "tunnel-operator-client"
def excludedNamespace : String := "kube-system"

structure Pod where
  name : String
  labels : Labels
  deriving DecidableEq, Repr

structure RoleRef where
  apiGroup : String
  kind : String
  name : String
  deriving DecidableEq, Repr

structure Subject where
  apiGroup : String
  kind : String
  name : String
  deriving DecidableEq, Repr

structure RoleBinding where
  nameSpace : String
  name : String
  uid : String
  labels : Labels
  roleRef : RoleRef
  subjects : List Subject
  deriving DecidableEq, Repr

/-- Whether a pod of `pods`, the labelled pods of namespace `ns`, is one injection applies
to. -/
def needsClientRoleBinding (ns : String) (pods : List Pod) : Bool :=
  if ns = excludedNamespace then false
  else pods.any fun pod => !pod.labels.has labelComponent

inductive RoleBindingAction where
  | none | apply | delete | refuse
  deriving DecidableEq, Repr

/-- The binding carries the operator's managed-by label. -/
def ours (binding : RoleBinding) : Bool := binding.labels.at labelManagedBy = managedByValue

def clientRoleBindingAction (needed : Bool) (existing : Option RoleBinding) : RoleBindingAction :=
  let own := existing.any ours
  if needed && (existing.isNone || own) then .apply
  else if needed then .refuse
  else if own then .delete
  else .none

/-- Built without a UID: the apiserver assigns one. -/
def desiredClientRoleBinding (ns : String) : RoleBinding where
  nameSpace := ns
  name := clientRoleName
  uid := ""
  labels := [(labelManagedBy, managedByValue)]
  roleRef := ⟨"rbac.authorization.k8s.io", "ClusterRole", clientRoleName⟩
  subjects := [⟨"rbac.authorization.k8s.io", "Group", "system:serviceaccounts:" ++ ns⟩]

/-- The last three calls are on the reconciler's own memory of the namespaces it has
logged: Delete and LoadOrStore of its map, which tells whether the key was there, and the
log line. -/
inductive BindingCall where
  | listPods (nameSpace : String) (matching : Labels)
  | getRoleBinding (key : NamespacedName)
  | applyForced (binding : RoleBinding)
  | deleteRoleBinding (key : NamespacedName) (uid : String)
  | forgetRefusal (nameSpace : String)
  | rememberRefusal (nameSpace : String)
  | logRefusal (nameSpace : String)

abbrev BindingAnswer : BindingCall → Type
  | .listPods .. => Except ApiError (List Pod)
  | .getRoleBinding _ => Except ApiError RoleBinding
  | .applyForced _ => Except ApiError Unit
  | .deleteRoleBinding .. => Except ApiError Unit
  | .forgetRefusal _ => Unit
  | .rememberRefusal _ => Bool
  | .logRefusal _ => Unit

abbrev BindingReconciler := Program BindingCall BindingAnswer ApiError

def clientRoleKey (ns : String) : NamespacedName := ⟨ns, clientRoleName⟩

/-- What Get made of the name: nothing for NotFound, and any other error ends the pass. -/
def existingRoleBinding (ns : String) : BindingReconciler (Option RoleBinding) := do
  match ← ask (BindingCall.getRoleBinding (clientRoleKey ns)) with
  | .ok found => return some found
  | .error e =>
    if e.isNotFound then return none
    else .fail (e.wrap ("get RoleBinding " ++ (clientRoleKey ns).string ++ ": "))

/-- The switch over the action. A binding is deleted under the UID it was read with. -/
def switchAction (ns : String) (existing : Option RoleBinding) :
  RoleBindingAction → BindingReconciler Unit
  | .apply => do
    match ← ask (BindingCall.applyForced (desiredClientRoleBinding ns)) with
    | .ok _ => return ()
    | .error e => .fail (e.wrap ("apply RoleBinding " ++ (clientRoleKey ns).string ++ ": "))
  | .delete => do
    match ← ask (BindingCall.deleteRoleBinding (clientRoleKey ns) ((existing.map (·.uid)).getD ""))
        with
    | .ok _ => return ()
    | .error e =>
      if e.isNotFound then return ()
      else .fail (e.wrap ("delete RoleBinding " ++ (clientRoleKey ns).string ++ ": "))
  | .refuse => do
    if ← ask (BindingCall.rememberRefusal ns) then return () else ask (BindingCall.logRefusal ns)
  | .none => return ()

/-- A refusal is forgotten once the operator is no longer refusing. -/
def carryOutAction (ns : String) (existing : Option RoleBinding) (action : RoleBindingAction) :
    BindingReconciler Unit := do
  if action ≠ .refuse then ask (BindingCall.forgetRefusal ns)
  switchAction ns existing action

/-- ClientRoleBindingReconciler.Reconcile for the namespace `ns`. -/
def reconcileClientRoleBinding (ns : String) : BindingReconciler Unit := do
  match ← ask (BindingCall.listPods ns [(labelEnabled, "true")]) with
  | .error e => .fail (e.wrap ("list labelled pods in " ++ ns ++ ": "))
  | .ok pods => do
    let existing ← existingRoleBinding ns
    carryOutAction ns existing (clientRoleBindingAction (needsClientRoleBinding ns pods) existing)

/-! What the decision writes to. -/

/-- The decision as a table. -/
theorem clientRoleBindingAction_eq (needed : Bool) (existing : Option RoleBinding) :
    clientRoleBindingAction needed existing =
      match needed, existing with
      | true, none => .apply
      | true, some binding => if ours binding then .apply else .refuse
      | false, some binding => if ours binding then .delete else .none
      | false, none => .none := by
  cases needed <;> cases existing <;> simp [clientRoleBindingAction]

/-- A pass writes only where it has read nothing or a binding of the operator. -/
theorem write_ours (existing : Option RoleBinding)
    (writes : clientRoleBindingAction needed existing = .apply ∨
    clientRoleBindingAction needed existing = .delete) : existing.all ours = true := by
  cases existing with
  | none => rfl
  | some binding =>
    by_contra foreign
    have other : ours binding = false := by simpa using foreign
    rcases writes with decided | decided <;> cases needed <;> simp
      [clientRoleBindingAction, other] at decided

/-! The calls of a pass. -/

section Calls
variable {expected : (request : BindingCall) → BindingAnswer request → Prop}
  {allowed : BindingCall → Prop} {ns : String}
  {existing : Option RoleBinding} {action : RoleBindingAction}

theorem carryOut_safe (applies : action = .apply →
    allowed (.applyForced (desiredClientRoleBinding ns)))
    (deletes : action = .delete → ∀ uid, allowed (.deleteRoleBinding (clientRoleKey ns) uid))
    (forgets : allowed (.forgetRefusal ns)) (remembers : allowed (.rememberRefusal ns))
    (logs : allowed (.logRefusal ns)) :
    (carryOutAction ns existing action).Safe expected allowed fun _ => True := by
  cases action with
  | apply =>
    refine ⟨forgets, fun _ _ => ⟨applies rfl, fun answer _ => ?_⟩⟩
    cases answer <;> trivial
  | delete =>
    refine ⟨forgets, fun _ _ => ⟨deletes rfl _, fun answer _ => ?_⟩⟩
    cases answer with
    | ok => trivial
    | error e =>
      show Program.Safe _ _ _ (if e.isNotFound = true then _ else _)
      split <;> trivial
  | refuse =>
    refine ⟨remembers, fun seen _ => ?_⟩
    cases seen
    · exact ⟨logs, fun _ _ => trivial⟩
    · trivial
  | none => exact ⟨forgets, fun _ _ => trivial⟩

theorem existing_safe (gets : allowed (.getRoleBinding (clientRoleKey ns))) :
    (existingRoleBinding ns).Safe expected allowed fun _ => True := by
  refine ⟨gets, fun answer _ => ?_⟩
  cases answer with
  | ok => trivial
  | error e =>
    show Program.Safe _ _ _ (if e.isNotFound = true then _ else _)
    split <;> trivial

end Calls

/-! A forced Server-Side Apply over a stored binding. -/

/-- subjects is an atomic list and is replaced; labels are merged; roleRef is immutable, so
an apply over another one is refused. -/
def applied (stored binding : RoleBinding) : RoleBinding :=
  { stored with
    labels := binding.labels.foldl (fun labels entry => labels.set entry.1 entry.2) stored.labels
    subjects := binding.subjects }

theorem Labels.at_set (labels : Labels) (key value : String) :
    (labels.set key value).at key = value := by
  unfold Labels.set Labels.at
  split
  · rename_i there
    rw [there, Option.getD_some]
  · rw [List.lookup_cons_self, Option.getD_some]

theorem ours_desired (ns uid : String) :
    ours { desiredClientRoleBinding ns with uid := uid } = true :=
  show decide (Labels.at [(labelManagedBy, managedByValue)] labelManagedBy = managedByValue) =
    true by decide

/-- An apply makes any binding the operator's. -/
theorem ours_applied (stored : RoleBinding) (ns : String) :
    ours (applied stored (desiredClientRoleBinding ns)) = true := by
  simp only [ours, decide_eq_true_eq]
  exact stored.labels.at_set labelManagedBy managedByValue

end TunnelOperator.Injection
