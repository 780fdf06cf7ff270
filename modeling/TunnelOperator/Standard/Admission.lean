import TunnelOperator.Library.Cel

/-! The apiserver's admission policies: which requests they select, and what their CEL
expressions do to a request's object. -/
namespace TunnelOperator.Admission

inductive SelectorOperator where
  | in | notIn | exists | doesNotExist
  deriving DecidableEq, Repr

structure LabelSelectorRequirement where
  key : String
  operator : SelectorOperator
  values : List String
  deriving DecidableEq, Repr

/-- NotIn also matches labels without the key. -/
def LabelSelectorRequirement.selects (requirement : LabelSelectorRequirement)
    (labels : List (String × String)) : Bool :=
  let value := labels.lookup requirement.key
  match requirement.operator with
  | .in => value.any requirement.values.contains
  | .notIn => !value.any requirement.values.contains
  | .exists => value.isSome
  | .doesNotExist => value.isNone

structure LabelSelector where
  matchLabels : List (String × String)
  matchExpressions : List LabelSelectorRequirement
  deriving DecidableEq, Repr

def LabelSelector.selects (selector : LabelSelector) (labels : List (String × String)) : Bool :=
  (selector.matchLabels.all fun (key, value) => labels.lookup key = some value) &&
    selector.matchExpressions.all (·.selects labels)

/-- matchResources of a binding. -/
structure MatchResources where
  objectSelector : LabelSelector
  namespaceSelector : LabelSelector
  deriving DecidableEq, Repr

def MatchResources.selects (resources : MatchResources)
    (namespaceLabels labels : List (String × String)) : Bool :=
  resources.objectSelector.selects labels && resources.namespaceSelector.selects namespaceLabels

/-- One of matchConstraints.resourceRules. -/
structure ResourceRule where
  apiGroups : List String
  apiVersions : List String
  operations : List String
  resources : List String
  deriving DecidableEq, Repr

inductive FailurePolicy where
  | fail | ignore
  deriving DecidableEq, Repr

inductive ReinvocationPolicy where
  | never | ifNeeded
  deriving DecidableEq, Repr

structure Metadata where
  apiVersion : String
  kind : String
  name : String
  labels : List (String × String)
  deriving DecidableEq, Repr

structure MutatingPolicy where
  metadata : Metadata
  failurePolicy : FailurePolicy
  reinvocationPolicy : ReinvocationPolicy
  resourceRules : List ResourceRule
  matchConditions : List (String × Cel)
  /-- The policy's variables. -/
  celVariables : List (String × Cel)
  /-- The expressions of the mutations, all of patchType JSONPatch. -/
  mutations : List Cel

structure ValidatingPolicy where
  metadata : Metadata
  failurePolicy : FailurePolicy
  resourceRules : List ResourceRule
  /-- The expressions with their messages. -/
  validations : List (Cel × String)

structure Binding where
  metadata : Metadata
  policyName : String
  matchResources : MatchResources
  deriving DecidableEq, Repr

/-- A condition that is false decides, whatever the others do. -/
def conditionsHold (conditions : List (String × Cel)) (object : Json) : Option Json :=
  conditions.foldr (fun condition rest => Cel.logicalAnd
    (condition.2.eval [("object", object)]) rest) (some (.bool true))

/-- What expressions can name: the object and the policy's variables. -/
def MutatingPolicy.bindings (policy : MutatingPolicy) (object : Json) : Cel.Bindings :=
  [("object", object), ("variables", .obj fun name => do
    let expression ← policy.celVariables.lookup name
    expression.eval [("object", object)])]

def mutateWith (bindings : Json → Cel.Bindings) (object : Json) (mutation : Cel) : Option Json :=
  match mutation.eval (bindings object) with
  | some (.arr operations) => object.patchAll operations
  | _ => none

/-- The object after one invocation, or nothing when the request is rejected. -/
def MutatingPolicy.invoke (policy : MutatingPolicy) (object : Json) : Option Json :=
  let result := match conditionsHold policy.matchConditions object with
    | some (.bool true) => policy.mutations.foldlM (mutateWith policy.bindings) object
    | some (.bool false) => some object
    | _ => none
  match result, policy.failurePolicy with
  | none, .ignore => some object
  | result, _ => result

theorem MutatingPolicy.invoke_skips {policy : MutatingPolicy}
    (fails : conditionsHold policy.matchConditions object = some (.bool false)) :
    policy.invoke object = some object := by
  simp only [invoke, fails]

theorem MutatingPolicy.invoke_mutates {policy : MutatingPolicy}
    (holds : conditionsHold policy.matchConditions object = some (.bool true))
    (mutated : policy.mutations.foldlM (mutateWith policy.bindings) object = some result) :
    policy.invoke object = some result := by
  simp only [invoke, holds, mutated]

/-- An error counts as the failure policy says. -/
def ValidatingPolicy.holds (policy : ValidatingPolicy) (object : Json) (expression : Cel) : Bool :=
  match expression.eval [("object", object)], policy.failurePolicy with
  | some (.bool verdict), _ => verdict
  | _, .ignore => true
  | _, .fail => false

/-- The messages a request for the object is denied with. -/
def ValidatingPolicy.denials (policy : ValidatingPolicy) (object : Json) : List String :=
  (policy.validations.filter fun validation => !policy.holds object validation.1).map (·.2)

def ValidatingPolicy.admits (policy : ValidatingPolicy) (object : Json) : Bool :=
  (policy.denials object).isEmpty

end TunnelOperator.Admission
