import Mathlib.Data.Finset.Lattice.Lemmas
import Mathlib.Data.List.Nodup

/-! Objects whose fields have managers, and what a server that keeps the managers promises
of a write: a manager that applies a configuration owns its fields, and what it applied
before and leaves out now goes unless another has it; a manager that updates owns what it
changes. -/
namespace TunnelOperator

inductive Operation where
  | apply | update
  deriving DecidableEq

structure Entry (K : Type) where
  manager : String
  operation : Operation
  apiVersion : String
  subresource : String
  fields : Finset K
  deriving DecidableEq

abbrev Manager := String × Operation × String × String

/-- An applier is one manager in every version of the API, an updater one in each. -/
def Entry.identity (e : Entry K) : Manager :=
  (e.manager, e.operation, if e.operation = .apply then "" else e.apiVersion, e.subresource)

def applier (name : String) : Manager := (name, .apply, "", "")

def updater (name apiVersion subresource : String) : Manager :=
  (name, .update, apiVersion, subresource)

/-- A managed field is there, a manager has one entry, and an entry has a field. -/
structure ManagedObject (K Value : Type) where
  value : K → Option Value
  entries : List (Entry K)
  distinct : (entries.map Entry.identity).Nodup
  shown : ∀ e ∈ entries, e.fields.Nonempty
  present : ∀ e ∈ entries, ∀ p ∈ e.fields, value p ≠ none

structure Configuration (K Value : Type) where
  fields : Finset K
  value : K → Value

/-- Somebody has the field. -/
def Managed (entries : List (Entry K)) (p : K) : Prop := ∃ e ∈ entries, p ∈ e.fields

namespace ManagedObject
variable {K Value : Type} {o old new : ManagedObject K Value} {who : Manager}
  {name apiVersion : String}
  {cfg written : Configuration K Value} {removed : List K} {defaulted : K → Prop}

def empty : ManagedObject K Value where
  value _ := none
  entries := []
  distinct := List.nodup_nil
  shown _ member := absurd member List.not_mem_nil
  present _ member := absurd member List.not_mem_nil

/-- A field that is there is managed by somebody, unless it was defaulted. -/
def Accounted (defaulted : K → Prop) (o : ManagedObject K Value) : Prop :=
  ∀ p, o.value p ≠ none → defaulted p ∨ Managed o.entries p

/-- The manager has these fields and no others, as fields of that version of the API. -/
structure Owns (o : ManagedObject K Value) (who : Manager) (apiVersion : String)
    (fields : Finset K) : Prop where
  fields : ∀ p, (∃ e ∈ o.entries, e.identity = who ∧ p ∈ e.fields) ↔ p ∈ fields
  version : ∀ e ∈ o.entries, e.identity = who → e.apiVersion = apiVersion

/-! What a write makes of an object. -/

/-- The entry has no more fields than the same manager had before. -/
structure Remains (before : List (Entry K)) (e : Entry K) (e₀ : Entry K) : Prop where
  member : e₀ ∈ before
  identity : e₀.identity = e.identity
  apiVersion : e₀.apiVersion = e.apiVersion
  fields : e.fields ⊆ e₀.fields

/-- Nobody but the writer gets a field. -/
def Inherits (who : Manager) (old new : ManagedObject K Value) : Prop :=
  ∀ e ∈ new.entries, e.identity = who ∨ ∃ e₀, Remains old.entries e e₀

/-- An update, a patch included. Who changes a field has it, and nobody loses one that
stays as it is. -/
structure Updated (defaulted : K → Prop) (who : Manager) (old new : ManagedObject K Value) :
    Prop where
  inherits : Inherits who old new
  managed : ∀ p, new.value p ≠ none →
    defaulted p ∨ Managed new.entries p ∨ new.value p = old.value p ∧ ¬ Managed old.entries p

/-- A merge patch that sets some fields and removes others. One that changes nothing leaves
the object as it is. -/
structure Patched (defaulted : K → Prop) (who : Manager) (written : Configuration K Value)
    (removed : List K)
    (old new : ManagedObject K Value) : Prop extends Updated defaulted who old new where
  writes : ∀ p ∈ written.fields, new.value p = some (written.value p)
  removes : ∀ p ∈ removed, p ∉ written.fields → defaulted p ∨ new.value p = none
  gains : ∀ e ∈ new.entries, e.identity = who → ∀ p ∈ e.fields,
    p ∈ written.fields ∨ defaulted p ∨ ∃ e₀ ∈ old.entries, e₀.identity = who ∧ p ∈ e₀.fields
  idle : (∀ p ∈ written.fields, old.value p = some (written.value p)) →
    (∀ p ∈ removed, old.value p = none) → new = old

/-- A forced apply of a configuration. A field that it leaves out stays where another
manager has it, or where nobody had it. -/
structure Applied (defaulted : K → Prop) (name apiVersion : String) (cfg : Configuration K Value)
    (old new : ManagedObject K Value) : Prop where
  rendered : ∀ p ∈ cfg.fields, new.value p = some (cfg.value p)
  owns : new.Owns (applier name) apiVersion cfg.fields
  inherits : Inherits (applier name) old new
  rest : ∀ p ∉ cfg.fields, new.value p ≠ none → defaulted p ∨
    (∃ e ∈ new.entries, e.identity ≠ applier name ∧ p ∈ e.fields) ∨ new.value p = old.value p ∧
      ¬ Managed old.entries p
  keeps : ∀ p ∉ cfg.fields, old.value p ≠ none → ¬ Managed old.entries p → new.value p = old.value p
  idle : (∀ p ∈ cfg.fields, old.value p = some (cfg.value p)) →
    old.Owns (applier name) apiVersion cfg.fields → new = old

/-! What follows. -/

theorem Updated.accounted (updated : Updated defaulted who old new)
    (accounted : old.Accounted defaulted) :
    new.Accounted defaulted := by
  intro p there
  rcases updated.managed p there with default | managed | ⟨same, unmanaged⟩
  · exact .inl default
  · exact .inr managed
  · exact .inl ((accounted p (same ▸ there)).resolve_right unmanaged)

/-- After an apply, what the configuration leaves out and is still there is another
manager's. -/
theorem Applied.left (applied : Applied defaulted name apiVersion cfg old new)
    (accounted : old.Accounted defaulted) (left : p ∉ cfg.fields) (there : new.value p ≠ none) :
    defaulted p ∨ ∃ e ∈ new.entries, e.identity ≠ applier name ∧ p ∈ e.fields := by
  rcases applied.rest p left there with default | other | ⟨same, unmanaged⟩
  · exact .inl default
  · exact .inr other
  · exact .inl ((accounted p (same ▸ there)).resolve_right unmanaged)

theorem Applied.accounted (applied : Applied defaulted name apiVersion cfg old new)
    (accounted : old.Accounted defaulted) : new.Accounted defaulted := by
  intro p there
  by_cases rendered : p ∈ cfg.fields
  · obtain ⟨e, member, -, inside⟩ := (applied.owns.fields p).mpr rendered
    exact .inr ⟨e, member, inside⟩
  · rcases applied.left accounted rendered there with default | ⟨e, member, -, inside⟩
    · exact .inl default
    · exact .inr ⟨e, member, inside⟩

end ManagedObject
end TunnelOperator
