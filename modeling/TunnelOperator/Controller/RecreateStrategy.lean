import TunnelOperator.Controller.Apply

/-! The switch of a live Deployment to the Recreate strategy, while nobody else writes. -/
namespace TunnelOperator.Controller
open Program Csaupgrade ObjectServer

variable {server : ObjectServer}
  {upgrade : Upgrade FieldPath String legacyFieldManager fieldManager}
  {target : Target} {r r' : ObjectStore} {dep : RenderedObject}

structure RendersRecreate (dep : RenderedObject) : Prop where
  strategy : strategyType ∈ dep.fields
  recreate : dep.value strategyType = "Recreate"
  noBlock : ∀ p ∈ rollingUpdatePaths, p ∉ dep.fields

theorem RendersRecreate.applied (renders : RendersRecreate dep)
    (applied : server.applied fieldManager target.apiVersion dep old new) :
    new.value strategyType = some "Recreate" :=
  ((server.applies applied).rendered _ renders.strategy).trans (congrArg some renders.recreate)

section Sample

end Sample
end TunnelOperator.Controller
