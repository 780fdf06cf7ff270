import TunnelOperator.Controller.Assessment

/-! What updateStatus makes of the conditions it finds. -/
namespace TunnelOperator

theorem find_setStatusCondition_other (conditions : List Condition) (differs : new.type ≠ type) :
    findStatusCondition (setStatusCondition conditions new) type =
      findStatusCondition conditions type := by
  induction conditions with
  | nil => simp [setStatusCondition, findStatusCondition, differs]
  | cons old rest ih =>
    unfold setStatusCondition
    split
    · rename_i same
      simp [findStatusCondition, differs, same]
    · by_cases found : old.type = type
      · simp [findStatusCondition, found]
      · simpa [findStatusCondition, found] using ih

theorem mem_setStatusCondition (member : entry ∈ setStatusCondition conditions new) :
    entry ∈ conditions ∨ entry = new := by
  induction conditions with
  | nil => exact .inr (List.mem_singleton.mp member)
  | cons old rest ih =>
    unfold setStatusCondition at member
    split at member <;> rcases List.mem_cons.mp member with rfl | later
    · exact .inr rfl
    · exact .inl (List.mem_cons_of_mem _ later)
    · exact .inl List.mem_cons_self
    · exact (ih later).imp_left (List.mem_cons_of_mem _)

namespace Controller
open Program Resources
variable {generation : Int} {latest : WireguardStatus} {cond : Condition}
    {identity : Option ServerIdentity}

def readyCondition (status : WireguardStatus) : Option Condition :=
  findStatusCondition status.conditions conditionReady

def degradedCondition (status : WireguardStatus) : Option Condition :=
  findStatusCondition status.conditions conditionDegraded

/-- A recorded condition was there before or carries the generation recorded. -/
theorem recorded_conditions
    (member : recorded ∈ (recordedStatus generation latest cond identity).conditions) :
    recorded ∈ latest.conditions ∨ recorded.observedGeneration = generation := by
  simp only [recordedStatus] at member
  split at member
  · rcases mem_setStatusCondition member with early | rfl
    · exact (mem_setStatusCondition early).imp_right (congrArg Condition.observedGeneration)
    · exact .inr rfl
  · exact (mem_setStatusCondition member).imp_right (congrArg Condition.observedGeneration)

/-! One report, as the two conditions see it. -/

theorem readyCondition_ready (ready : cond.type = conditionReady) :
    readyCondition (recordedStatus generation latest cond identity) =
      some { cond with observedGeneration := generation } := by
  simp only [readyCondition, recordedStatus, if_pos ready]
  rw [find_setStatusCondition_other _ (show conditionDegraded ≠ conditionReady by decide), ← ready]
  exact find_setStatusCondition _ { cond with observedGeneration := generation }

theorem readyCondition_other (other : cond.type ≠ conditionReady) :
    readyCondition (recordedStatus generation latest cond identity) = readyCondition latest := by
  simp only [readyCondition, recordedStatus, if_neg other]
  exact find_setStatusCondition_other _ other

theorem degradedCondition_ready (ready : cond.type = conditionReady) :
    (degradedCondition (recordedStatus generation latest cond identity)).map (·.status) =
      some .false := by
  simp only [degradedCondition, recordedStatus, if_pos ready]
  exact congrArg (Option.map (·.status)) (find_setStatusCondition _ ⟨conditionDegraded, _, _, _, _⟩)

theorem degradedCondition_progressing (progressing : cond.type = conditionProgressing) :
    degradedCondition (recordedStatus generation latest cond identity) =
      degradedCondition latest := by
  have other : cond.type ≠ conditionReady := progressing ▸ by decide
  simp only [degradedCondition, recordedStatus, if_neg other]
  exact find_setStatusCondition_other _
    (show cond.type ≠ conditionDegraded from progressing ▸ by decide)

/-! The summary. -/

theorem recordedStatus_ready (type : cond.type = conditionReady) :
    (recordedStatus generation latest cond identity).status = if cond.status = .true then ready
      else pending :=
  if_pos type

theorem recordedStatus_degraded (type : cond.type = conditionDegraded) :
    (recordedStatus generation latest cond identity).status = error := by
  have other : cond.type ≠ conditionReady := type ▸ by decide
  exact (if_neg other).trans (if_pos type)

theorem recordedStatus_progressing (type : cond.type = conditionProgressing) :
    (recordedStatus generation latest cond identity).status = pending := by
  have other : cond.type ≠ conditionReady := type ▸ by decide
  have healthy : cond.type ≠ conditionDegraded := type ▸ by decide
  exact (if_neg other).trans (if_neg healthy)

theorem recordedStatus_started (generation : Int) (latest : WireguardStatus) (cond : Condition)
    (identity : Option ServerIdentity) :
    (recordedStatus generation latest cond identity).status ≠ "" := by
  simp only [recordedStatus]
  split
  · split <;> decide
  · split <;> decide

/-- A run of updateStatus writes nothing, or writes once over the copy it has just read. -/
theorem updateStatus_trace {S : Type} {env : Environment Call Answer S} {s t : S}
    (run : Trace env s (updateStatus wg cond identity) events outcome t) :
    (∀ event ∈ events, SparesStatus event.1) ∨
    ∃ latest written answer u, env s (.getWireguard wg.key) (.ok latest) u ∧
      written = { latest with status := recordedStatus wg.generation latest.status cond identity } ∧
      env u (.updateWireguardStatus written) answer t ∧
      events = [⟨.getWireguard wg.key, .ok latest⟩, ⟨.updateWireguardStatus written, answer⟩] := by
  simp only [updateStatus, ask_bind] at run
  cases run with
  | cut => exact .inl (by simp)
  | @call _ _ answer u _ _ _ _ read rest =>
    cases answer with
    | error e => cases rest <;> exact .inl (by simp [SparesStatus])
    | ok latest =>
      cases rest with
      | cut => exact .inl (by simp [SparesStatus])
      | @call _ _ answer _ _ _ _ _ written rest =>
        right
        cases answer <;> cases rest <;> exact ⟨latest, _, _, u, read, rfl, written, rfl⟩

end Controller
end TunnelOperator
