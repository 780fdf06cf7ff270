import TunnelOperator.Injection.PolicyProofs

/-! The injection policy and the backstop over a whole admission: the policy runs any number
of times between other mutators, and the backstop sees what comes out. -/
namespace TunnelOperator.Injection
open Admission

/-! What the backstop admits. -/

theorem eval_noHostNetwork (pod : PodObject) :
    noHostNetwork.eval [("object", pod.json)] = some (.bool (pod.hostNetwork ≠ some true)) := by
  have spec : objectSpec.eval [("object", pod.json)] = some (.obj pod.specMember) :=
    eval_objectSpec rfl
  rcases listed : pod.hostNetwork with _ | flag
  · simp [noHostNetwork, Cel.eval, spec, PodObject.specMember, listed, Cel.logicalNot,
      Cel.logicalOr]
  · cases flag <;>
      simp [noHostNetwork, Cel.eval, spec, PodObject.specMember, listed, Cel.logicalNot,
        Cel.logicalOr]

/-- The pod's first init container is the sidecar, kept running. -/
def PodObject.sidecarFirst (pod : PodObject) : Bool :=
  match pod.initContainers with
  | some (first :: _) => first.name = sidecarContainer && first.restartPolicy = some "Always"
  | _ => false

theorem eval_sidecarFirst (pod : PodObject) :
    sidecarFirst.eval [("object", pod.json)] = some (.bool pod.sidecarFirst) := by
  have spec : objectSpec.eval [("object", pod.json)] = some (.obj pod.specMember) :=
    eval_objectSpec rfl
  have range : initContainersOf.eval [("object", pod.json)] =
      pod.initContainers.map fun containers => .arr (containers.map (·.json)) :=
        eval_initContainersOf rfl
  rcases listed : pod.initContainers with _ | _ | ⟨first, rest⟩
  · simp [sidecarFirst, PodObject.sidecarFirst, Cel.eval, spec, range, PodObject.specMember, listed,
      Cel.logicalAnd]
  · simp [sidecarFirst, PodObject.sidecarFirst, Cel.eval, spec, range, PodObject.specMember, listed,
      Cel.logicalAnd]
  · by_cases named : first.name = "wg-client" <;> rcases policy :
      first.restartPolicy with _ | restart <;>
      simp [sidecarFirst, PodObject.sidecarFirst, sidecarContainer, Cel.eval, spec, range,
        PodObject.specMember, listed, Container.json, named, policy, Cel.logicalAnd]
    by_cases always : restart = "Always" <;> simp [always]

/-- Neither validation is ever an error, so the two of them decide. -/
theorem admits_eq (pod : PodObject) :
    requireInjectionPolicy.admits pod.json = (pod.hostNetwork ≠ some true && pod.sidecarFirst) := by
  have first : requireInjectionPolicy.holds pod.json noHostNetwork =
      decide (pod.hostNetwork ≠ some true) := by
    rw [ValidatingPolicy.holds, eval_noHostNetwork]
  have second : requireInjectionPolicy.holds pod.json sidecarFirst = pod.sidecarFirst := by
    rw [ValidatingPolicy.holds, eval_sidecarFirst]
  rw [ValidatingPolicy.admits, ValidatingPolicy.denials, List.isEmpty_map]
  simp only [requireInjectionPolicy] at first second ⊢
  simp only [List.filter_cons, first, second, List.filter_nil]
  cases decide (pod.hostNetwork ≠ some true) <;> cases pod.sidecarFirst <;> rfl

theorem PodObject.sidecarFirst_iff {pod : PodObject} :
    pod.sidecarFirst ↔ ∃ first rest, pod.initContainers = some (first :: rest) ∧
      first.name = sidecarContainer ∧
      first.restartPolicy = some "Always" := by
  unfold PodObject.sidecarFirst
  rcases pod.initContainers with _ | _ | ⟨first, rest⟩ <;> simp

/-! The run of an admission. -/

/-- The policy on a pod in a namespace with these labels, where its binding selects the pod. -/
def mutatePod (rendered : MutatingPolicy × Binding) (namespaceLabels : Labels) (pod : PodObject) :
    Option Json :=
  if rendered.2.matchResources.selects namespaceLabels pod.labels then rendered.1.invoke pod.json
  else some pod.json

/-- The backstop on a pod, where its binding selects the pod. -/
def admitPod (namespaceLabels : Labels) (pod : PodObject) : Bool :=
  !requireInjectionBinding.matchResources.selects namespaceLabels pod.labels ||
    requireInjectionPolicy.admits pod.json

/-- A pod on its way through admission, with how often the policy was invoked and how many
of the invocations changed the pod. `others` is what the other mutators may do. -/
inductive Admitting (rendered : MutatingPolicy × Binding) (namespaceLabels : Labels)
    (others : PodObject → PodObject → Prop) (start : PodObject) : Nat → Nat → PodObject → Prop where
  | start : Admitting rendered namespaceLabels others start 0 0 start
  | kept (before : Admitting rendered namespaceLabels others start invocations insertions pod)
      (invoked : mutatePod rendered namespaceLabels pod = some pod.json) :
      Admitting rendered namespaceLabels others start (invocations + 1) insertions pod
  | changed (before : Admitting rendered namespaceLabels others start invocations insertions pod)
      (invoked : mutatePod rendered namespaceLabels pod = some next.json)
      (differs : next.json ≠ pod.json) :
      Admitting rendered namespaceLabels others start (invocations + 1) (insertions + 1) next
  | other (before : Admitting rendered namespaceLabels others start invocations insertions pod)
      (mutated : others pod next) :
      Admitting rendered namespaceLabels others start invocations insertions next

/-- A mutator that does not remove wg-client. -/
def KeepsClient (pod next : PodObject) : Prop := pod.hasClient → next.hasClient

theorem hasClient_injected (pod : PodObject) (named : sidecar.name = sidecarContainer)
    (volumes : List Json) :
    (pod.injected sidecar volumes).hasClient := by
  simp [PodObject.hasClient, PodObject.injected, named]

/-- Whether a pod has wg-client can be read from its JSON. -/
theorem hasClient_congr {pod next : PodObject} (same : next.json = pod.json) :
    next.hasClient = pod.hasClient := by
  have here : notYetInjected.eval [("object", pod.json)] = some (.bool !pod.hasClient) :=
    eval_notYetInjected rfl
  have there : notYetInjected.eval [("object", next.json)] = some (.bool !next.hasClient) :=
    eval_notYetInjected rfl
  rw [same, here] at there
  simpa using there.symm

section Run
variable {version : String} {sidecar : Container} {volumes : List Json} {namespaceLabels : Labels}
  {pod next start : PodObject}

/-- A pod with wg-client goes through an invocation unchanged. -/
theorem mutatePod_hasClient (client : pod.hasClient) :
    mutatePod (renderInjectPolicy version sidecar volumes) namespaceLabels pod = some pod.json := by
  rw [mutatePod, invoke_eq, if_pos client, ite_self]

/-- A selected pod without it comes out injected. -/
theorem mutatePod_selected (selected : injectMatchResources.selects namespaceLabels pod.labels)
    (clean : ¬pod.hasClient) :
    mutatePod (renderInjectPolicy version sidecar volumes) namespaceLabels pod =
      some (pod.injected sidecar volumes).json := by
  rw [mutatePod, invoke_eq, if_neg clean]
  exact if_pos selected

theorem mutatePod_total : ∃ next : PodObject,
    mutatePod (renderInjectPolicy version sidecar volumes) namespaceLabels pod =
      some next.json := by
  rw [mutatePod, invoke_eq]
  split
  · exact ⟨_, rfl⟩
  · exact ⟨pod, rfl⟩

/-- An invocation that changes a pod has inserted wg-client where there was none. -/
theorem changed_hasClient (named : sidecar.name = sidecarContainer)
    (invoked : mutatePod (renderInjectPolicy version sidecar volumes) namespaceLabels pod =
      some next.json)
    (differs : next.json ≠ pod.json) : ¬pod.hasClient ∧ next.hasClient := by
  have clean : ¬pod.hasClient := by
    intro client
    rw [mutatePod_hasClient client] at invoked
    exact differs (Option.some.inj invoked).symm
  refine ⟨clean, ?_⟩
  rw [mutatePod, invoke_eq, if_neg clean] at invoked
  split at invoked
  · rw [hasClient_congr (Option.some.inj invoked).symm]
    exact hasClient_injected pod named volumes
  · exact absurd (Option.some.inj invoked).symm differs

/-- Along a run: at most one insertion, and wg-client is there after it. -/
theorem insertions_le (named : sidecar.name = sidecarContainer)
    (run : Admitting (renderInjectPolicy version sidecar volumes) namespaceLabels KeepsClient
      start invocations insertions pod) : insertions = 0 ∨ insertions = 1 ∧ pod.hasClient := by
  induction run with
  | start => exact .inl rfl
  | kept _ _ ih => exact ih
  | changed _ invoked differs ih =>
    obtain ⟨clean, client⟩ := changed_hasClient named invoked differs
    rcases ih with none | ⟨-, earlier⟩
    · exact .inr ⟨congrArg (· + 1) none, client⟩
    · exact absurd earlier clean
  | other _ keeps ih => exact ih.imp_right fun ⟨once, client⟩ => ⟨once, keeps client⟩

/-- With no other mutator, every invocation but the first finds the injected pod. -/
theorem run_injected (named : sidecar.name = sidecarContainer)
    (selected : injectMatchResources.selects namespaceLabels start.labels)
    (clean : ¬start.hasClient)
    (run : Admitting (renderInjectPolicy version sidecar volumes) namespaceLabels
      (fun _ _ => False) start invocations insertions pod) :
    invocations = 0 ∧ pod = start ∨ pod.json = (start.injected sidecar volumes).json := by
  have client := hasClient_injected start named volumes
  induction run with
  | start => exact .inl ⟨rfl, rfl⟩
  | kept _ invoked ih =>
    rcases ih with ⟨-, rfl⟩ | injected
    · rw [mutatePod_selected selected clean] at invoked
      exact .inr (Option.some.inj invoked).symm
    · exact .inr injected
  | changed _ invoked differs ih =>
    rcases ih with ⟨-, rfl⟩ | injected
    · rw [mutatePod_selected selected clean] at invoked
      exact .inr (Option.some.inj invoked).symm
    · have gone := (changed_hasClient named invoked differs).1
      rw [hasClient_congr injected] at gone
      exact absurd client gone
  | other _ mutated _ => exact mutated.elim

end Run

theorem admits_injected (host : pod.hostNetwork ≠ some true)
    (named : sidecar.name = sidecarContainer)
    (always : sidecar.restartPolicy = some "Always") (volumes : List Json) :
    requireInjectionPolicy.admits (PodObject.injected pod sidecar volumes).json := by
  rw [admits_eq, Bool.and_eq_true]
  refine ⟨decide_eq_true host, PodObject.sidecarFirst_iff.mpr ?_⟩
  exact ⟨sidecar, pod.initContainers.getD [], rfl, named, always⟩

/-- The policy inserts its sidecar at most once whatever runs between its invocations, what
the backstop admits has the sidecar first and no hostNetwork, and a pod that could be
injected is, and is admitted. -/
theorem injection_meets_backstop (version image gateway : String) (namespaceLabels : Labels) :
    let sidecar := (injectedSidecar image gateway).1
    let volumes := (injectedSidecar image gateway).2
    let rendered := renderInjectPolicy version sidecar volumes
    (∀ start invocations insertions pod,
      Admitting rendered namespaceLabels KeepsClient start invocations insertions pod →
        insertions ≤ 1) ∧
    (∀ pod : PodObject, requireInjectionBinding.matchResources.selects namespaceLabels pod.labels →
      admitPod namespaceLabels pod → pod.hostNetwork ≠ some true ∧ ∃ first rest,
        pod.initContainers = some (first :: rest) ∧ first.name = "wg-client" ∧
          first.restartPolicy = some "Always") ∧
    (∀ start : PodObject, rendered.2.matchResources.selects namespaceLabels start.labels →
      start.hostNetwork ≠ some true → ¬start.hasClient → ∀ invocations insertions pod,
      Admitting rendered namespaceLabels (fun _ _ => False) start (invocations + 1) insertions pod →
      pod.json = (start.injected sidecar volumes).json ∧ admitPod namespaceLabels pod) ∧
    (∀ pod : PodObject, ∃ next : PodObject,
      mutatePod rendered namespaceLabels pod = some next.json) ∧
    (∀ labels, rendered.2.matchResources.selects namespaceLabels labels =
      requireInjectionBinding.matchResources.selects namespaceLabels labels) ∧
    rendered.1.resourceRules = requireInjectionPolicy.resourceRules := by
  intro sidecar volumes rendered
  refine ⟨?_, ?_, ?_, fun _ => mutatePod_total, fun _ => rfl, rfl⟩
  · intro start invocations insertions pod run
    rcases insertions_le rfl run with none | ⟨once, -⟩ <;> omega
  · intro pod selected admitted
    rw [admitPod, selected, Bool.not_true, Bool.false_or, admits_eq, Bool.and_eq_true] at admitted
    exact ⟨of_decide_eq_true admitted.1, PodObject.sidecarFirst_iff.mp admitted.2⟩
  · intro start selected host clean invocations insertions pod run
    rcases run_injected rfl selected clean run with ⟨none, -⟩ | injected
    · exact absurd none (Nat.succ_ne_zero _)
    · refine ⟨injected, ?_⟩
      rw [admitPod, injected, admits_injected host rfl rfl, Bool.or_true]

def setupContainer : Container :=
  ⟨"setup", none, fun key => List.lookup key [("image", .str "busybox")]⟩

def ownVolume : Json := .object [("name", .str "mine"), ("emptyDir", .object [])]

/-- A labelled pod with an init container and a volume of its own. -/
def labelledPod : PodObject where
  labels := [("tunnel-operator.io/enabled", "true")]
  hostNetwork := none
  initContainers := some [setupContainer]
  volumes := some [ownVolume]
  rest := fun _ => none
  metadata := fun _ => none
  beside := fun _ => none

def defaultNamespace : Labels := [("kubernetes.io/metadata.name", "default")]

/-- The pod is injected, and the policy's second invocation leaves it as it is. -/
theorem labelledPod_admitted :
    let sidecar := (injectedSidecar "agent:v1" "tunnels/vpn").1
    let volumes := (injectedSidecar "agent:v1" "tunnels/vpn").2
    let rendered := renderInjectPolicy "v1" sidecar volumes
    let pod := labelledPod.injected sidecar volumes
    Admitting rendered defaultNamespace (fun _ _ => False) labelledPod 2 1 pod ∧
      admitPod defaultNamespace pod ∧
      pod.initContainers = some [sidecar, setupContainer] ∧
        pod.volumes = some (ownVolume :: volumes) := by
  intro sidecar volumes rendered pod
  have selected : injectMatchResources.selects defaultNamespace labelledPod.labels := by decide
  have clean : ¬labelledPod.hasClient := by decide
  have differs : pod.json ≠ labelledPod.json := fun same =>
    clean (hasClient_congr same ▸ hasClient_injected labelledPod rfl volumes)
  have run : Admitting rendered defaultNamespace (fun _ _ => False) labelledPod 2 1 pod :=
    .kept (.changed .start (mutatePod_selected selected clean) differs)
      (mutatePod_hasClient (hasClient_injected labelledPod rfl volumes))
  have agreed := (injection_meets_backstop "v1" "agent:v1" "tunnels/vpn" defaultNamespace).2.2.1
    labelledPod selected (by decide) clean 1 1 pod run
  exact ⟨run, agreed.2, rfl, rfl⟩

end TunnelOperator.Injection
