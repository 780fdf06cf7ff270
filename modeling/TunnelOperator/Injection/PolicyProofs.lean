import TunnelOperator.Injection.Policy

/-! What the policies' expressions compute on a pod. -/
namespace TunnelOperator.Injection
open Admission

/-- Some init container is named wg-client. -/
def PodObject.hasClient (pod : PodObject) : Bool :=
  (pod.initContainers.getD []).any (·.name = sidecarContainer)

/-- The pod with the sidecar first and the policy's volumes last. -/
def PodObject.injected (pod : PodObject) (sidecar : Container) (volumes : List Json) : PodObject :=
  { pod with
    initContainers := some (sidecar :: pod.initContainers.getD [])
    volumes := some (pod.volumes.getD [] ++ volumes) }

/-! Reading the pod. -/

section Reading
variable {env : Cel.Bindings} {pod : PodObject}

theorem eval_objectSpec (bound : env.lookup "object" = some pod.json) :
    objectSpec.eval env = some (.obj pod.specMember) := by
  simp [objectSpec, Cel.eval, bound, PodObject.json, PodObject.member]

theorem eval_has (bound : env.lookup "object" = some pod.json) (field : String) :
    (Cel.has objectSpec field).eval env = some (.bool (pod.specMember field).isSome) := by
  simp [Cel.eval, eval_objectSpec bound]

theorem eval_initContainersOf (bound : env.lookup "object" = some pod.json) :
    initContainersOf.eval env = pod.initContainers.map fun containers => .arr
      (containers.map (·.json)) := by
  simp [initContainersOf, Cel.eval, eval_objectSpec bound, PodObject.specMember]

theorem eval_named (container : Container) :
    (Cel.eq (.select (.var "c") "name") sidecarContainer).eval (("c", container.json) :: env) =
      some (.bool (container.name = sidecarContainer)) := by
  simp [Cel.eval, Container.json]

/-- The condition holds of the pods without wg-client, and is never an error. -/
theorem eval_notYetInjected (bound : env.lookup "object" = some pod.json) :
    notYetInjected.eval env = some (.bool !pod.hasClient) := by
  have present := eval_has bound "initContainers"
  have range := eval_initContainersOf bound
  unfold notYetInjected PodObject.hasClient
  cases listed : pod.initContainers with
  | none =>
    rw [Cel.eval_or, Cel.eval_not, present]
    simp [PodObject.specMember, listed, Cel.logicalNot, Cel.logicalOr]
  | some containers =>
    rw [listed, Option.map_some] at range
    have found := Cel.eval_exists range fun container _ => eval_named container
    rw [Cel.eval_or, Cel.eval_not, Cel.eval_not, present, found]
    simp only [PodObject.specMember, listed, Option.getD_some]
    cases containers.any (·.name = sidecarContainer) <;> rfl

end Reading

/-! Patching the pod. -/

section Patching
variable {pod next : PodObject}

/-- The two pods differ only in their specs. -/
structure SameBeside (pod next : PodObject) : Prop where
  metadata : next.metadataMember = pod.metadataMember
  beside : next.beside = pod.beside

theorem update_spec (same : SameBeside pod next) :
    Function.update pod.member "spec" (some (.obj next.specMember)) = next.member := by
  funext key
  by_cases spec : key = "spec"
  · simp [spec, PodObject.member]
  · simp [spec, PodObject.member, same.metadata, same.beside]

/-- Adding inside the spec. -/
theorem add_spec (same : SameBeside pod next)
    (added : Json.add value (token :: rest) (.obj pod.specMember) = some (.obj next.specMember)) :
    Json.add value ("spec" :: token :: rest) pod.json = some next.json := by
  have found : pod.member "spec" = some (.obj pod.specMember) := rfl
  simp [PodObject.json, Json.add, found, added, update_spec same]

theorem update_volumes (volumes : List Json) :
    Function.update pod.specMember "volumes" (some (.arr volumes)) =
      PodObject.specMember { pod with volumes := some volumes } := by
  funext key
  by_cases named : key = "volumes" <;> simp [named, PodObject.specMember]

theorem update_initContainers (pod : PodObject) (containers : List Container) :
    Function.update pod.specMember "initContainers" (some (.arr (containers.map (·.json)))) =
      PodObject.specMember { pod with initContainers := some containers } := by
  funext key
  by_cases named : key = "initContainers" <;> simp [named, PodObject.specMember]

theorem add_volumes (pod : PodObject) (volumes : List Json) :
    pod.json.patch (.addition "/spec/volumes" (.arr volumes)) =
      some (PodObject.json { pod with volumes := some volumes }) := by
  rw [Json.patch_addition _ _ _ (show _ = some ["spec", "volumes"] by decide +kernel)]
  refine add_spec ⟨rfl, rfl⟩ ?_
  rw [Json.add, update_volumes]

theorem append_volume (volume : Json) (listed : pod.volumes = some own) :
    pod.json.patch (.addition "/spec/volumes/-" volume) =
      some (PodObject.json { pod with volumes := some (own ++ [volume]) }) := by
  rw [Json.patch_addition _ _ _ (show _ = some ["spec", "volumes", "-"] by decide +kernel)]
  refine add_spec ⟨rfl, rfl⟩ ?_
  have found : pod.specMember "volumes" = some (.arr own) := by simp [PodObject.specMember, listed]
  simp [Json.add, found, update_volumes]

theorem append_volumes (volumes : List Json) (listed : pod.volumes = some own) :
    pod.json.patchAll (volumes.map (.addition "/spec/volumes/-")) =
      some (PodObject.json { pod with volumes := some (own ++ volumes) }) := by
  -- On the volumes left to append; what has been appended is part of the pod's own.
  induction volumes generalizing pod own with
  | nil => simp [Json.patchAll, ← listed]
  | cons volume rest ih =>
    rw [Json.patchAll, List.map_cons, List.foldlM_cons, append_volume volume listed]
    refine (ih rfl).trans ?_
    rw [List.append_assoc, List.singleton_append]

theorem add_initContainers (pod : PodObject) (container : Container) :
    pod.json.patch (.addition "/spec/initContainers" (.arr [container.json])) =
      some (PodObject.json { pod with initContainers := some [container] }) := by
  rw [Json.patch_addition _ _ _ (show _ = some ["spec", "initContainers"] by decide +kernel)]
  refine add_spec ⟨rfl, rfl⟩ ?_
  have updated := update_initContainers pod [container]
  rw [List.map_singleton] at updated
  rw [Json.add, updated]

theorem insert_initContainer (container : Container) (listed : pod.initContainers = some own) :
    pod.json.patch (.addition "/spec/initContainers/0" container.json) =
      some (PodObject.json { pod with initContainers := some (container :: own) }) := by
  rw [Json.patch_addition _ _ _ (show _ = some ["spec", "initContainers", "0"] by decide +kernel)]
  refine add_spec ⟨rfl, rfl⟩ ?_
  have found : pod.specMember "initContainers" = some (.arr (own.map (·.json))) := by
    simp [PodObject.specMember, listed]
  have updated := update_initContainers pod (container :: own)
  rw [List.map_cons] at updated
  have first : Json.index? "0" = some 0 := by decide +kernel
  simp [Json.add, found, first, updated]

end Patching

/-! One invocation of the policy. -/

def volumeAdditions (pod : PodObject) (volumes : List Json) : List Json :=
  if pod.volumes.isSome then volumes.map (.addition "/spec/volumes/-") else [.addition "/spec/volumes" (.arr volumes)]

def containerAddition (pod : PodObject) (sidecar : Container) : Json :=
  if pod.initContainers.isSome then .addition "/spec/initContainers/0" sidecar.json
  else .addition "/spec/initContainers" (.arr [sidecar.json])

theorem eval_injectMutation (version : String) (sidecar : Container) (volumes : List Json) (pod : PodObject) :
    injectMutation.eval ((renderInjectPolicy version sidecar volumes).1.bindings pod.json) =
      some (.arr (volumeAdditions pod volumes ++ [containerAddition pod sidecar])) := by
  let env := (renderInjectPolicy version sidecar volumes).1.bindings pod.json
  have bound : env.lookup "object" = some pod.json := rfl
  have ownVolumes : (Cel.select (.var "variables") "volumes").eval env = some (.arr volumes) := rfl
  have ownSidecar : (Cel.select (.var "variables") "sidecar").eval env = some sidecar.json := rfl
  have appended : (Cel.map (.select (.var "variables") "volumes") "v"
      (.jsonPatch "add" "/spec/volumes/-" (.var "v"))).eval env =
      some (.arr (volumes.map (.addition "/spec/volumes/-"))) :=
    Cel.eval_map ownVolumes fun _ _ => rfl
  apply Cel.eval_plus
  · rw [Cel.eval_ite (eval_has bound "volumes"), appended, Cel.eval_single (Cel.eval_jsonPatch ownVolumes)]
    cases listed : pod.volumes <;> simp [volumeAdditions, PodObject.specMember, listed]
  · rw [Cel.eval_ite (eval_has bound "initContainers"), Cel.eval_single (Cel.eval_jsonPatch ownSidecar),
      Cel.eval_single (Cel.eval_jsonPatch (Cel.eval_single ownSidecar))]
    cases listed : pod.initContainers <;> simp [containerAddition, PodObject.specMember, listed]

theorem patch_volumeAdditions (pod : PodObject) (volumes : List Json) :
    pod.json.patchAll (volumeAdditions pod volumes) =
      some (PodObject.json { pod with volumes := some (pod.volumes.getD [] ++ volumes) }) := by
  cases listed : pod.volumes with
  | none =>
    rw [volumeAdditions, listed]
    exact (bind_pure _).trans (add_volumes pod volumes)
  | some own =>
    rw [volumeAdditions, listed]
    exact append_volumes volumes listed

theorem patch_containerAddition (pod : PodObject) (sidecar : Container) :
    pod.json.patch (containerAddition pod sidecar) =
      some (PodObject.json { pod with initContainers := some (sidecar :: pod.initContainers.getD []) }) := by
  cases listed : pod.initContainers with
  | none =>
    rw [containerAddition, listed]
    exact add_initContainers pod sidecar
  | some own =>
    rw [containerAddition, listed]
    exact insert_initContainer sidecar listed

theorem patch_injected (pod : PodObject) (sidecar : Container) (volumes : List Json) :
    pod.json.patchAll (volumeAdditions pod volumes ++ [containerAddition pod sidecar]) =
      some (pod.injected sidecar volumes).json := by
  have first := patch_volumeAdditions pod volumes
  have inserted := patch_containerAddition { pod with volumes := some (pod.volumes.getD [] ++ volumes) } sidecar
  rw [Json.patchAll] at first ⊢
  rw [List.foldlM_append, first]
  exact (bind_pure _).trans inserted

/-- One invocation: a pod without wg-client is injected, any other is left as it is, and no
pod is an error. -/
theorem invoke_eq (version : String) (sidecar : Container) (volumes : List Json) (pod : PodObject) :
    (renderInjectPolicy version sidecar volumes).1.invoke pod.json =
      some (if pod.hasClient then pod else pod.injected sidecar volumes).json := by
  let policy := (renderInjectPolicy version sidecar volumes).1
  have condition : conditionsHold policy.matchConditions pod.json = some (.bool !pod.hasClient) := by
    have evaluated : notYetInjected.eval [("object", pod.json)] = some (.bool !pod.hasClient) :=
      eval_notYetInjected rfl
    simp only [policy, conditionsHold, renderInjectPolicy, List.foldr_cons, List.foldr_nil, evaluated]
    cases pod.hasClient <;> rfl
  have mutated : policy.mutations.foldlM (mutateWith policy.bindings) pod.json =
      some (pod.injected sidecar volumes).json := by
    have evaluated := eval_injectMutation version sidecar volumes pod
    refine (bind_pure _).trans ?_
    rw [mutateWith, evaluated]
    exact patch_injected pod sidecar volumes
  cases client : pod.hasClient with
  | true => exact policy.invoke_skips (by rw [condition, client]; rfl)
  | false => exact policy.invoke_mutates (by rw [condition, client]; rfl) mutated

end TunnelOperator.Injection
