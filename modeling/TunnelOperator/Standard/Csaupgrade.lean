import TunnelOperator.Library.FieldManagers

/-! client-go's util/csaupgrade, by what it promises: the fields that a manager owned by
Update become fields that a manager owns by Apply. Entries are of the object itself, not of
a subresource. -/
namespace TunnelOperator.Csaupgrade

variable {K Value : Type} {csa ssa : String} {entries : List (Entry K)} {e : Entry K}

def isServerSide (ssaManagerName : String) (e : Entry K) : Bool :=
  e.manager = ssaManagerName && e.operation = .apply && e.subresource = ""

def isClientSide (csaManagerName : String) (e : Entry K) : Bool :=
  e.manager = csaManagerName && e.operation = .update && e.subresource = ""

theorem isServerSide_iff : isServerSide ssa e = true ↔ e.identity = applier ssa := by
  simp only [isServerSide, Entry.identity, applier, Bool.and_eq_true, decide_eq_true_eq,
    Prod.mk.injEq]
  constructor
  · rintro ⟨⟨rfl, applies⟩, same⟩
    exact ⟨rfl, applies, if_pos applies, same⟩
  · rintro ⟨rfl, applies, -, same⟩
    exact ⟨⟨rfl, applies⟩, same⟩

theorem isClientSide_identity (client : isClientSide csa e = true) :
    e.identity = updater csa e.apiVersion "" := by
  simp only [isClientSide, Bool.and_eq_true, decide_eq_true_eq] at client
  simp [Entry.identity, updater, client]

/-- What the manager's entry says of it is told by the manager. -/
theorem isClientSide_congr {first second : Entry K} (same : first.identity = second.identity) :
    isClientSide csa first = isClientSide csa second := by
  simp only [Entry.identity, Prod.mk.injEq] at same
  simp only [isClientSide, same.1, same.2.1, same.2.2.2]

theorem isClientSide_applier (named : e.identity = applier ssa) : isClientSide csa e = false := by
  have applies : e.operation = .apply := congrArg (fun who : Manager => who.2.1) named
  simp [isClientSide, applies]

/-- No entry is left of the manager that updated. -/
def NoClientSide (csa : String) (entries : List (Entry K)) : Prop :=
  ∀ e ∈ entries, isClientSide csa e = false

/-- The entries of the two managers are all of one version of the API. -/
def OneVersion (csa ssa apiVersion : String) (entries : List (Entry K)) : Prop :=
  ∀ e ∈ entries, isClientSide csa e = true ∨ isServerSide ssa e = true → e.apiVersion = apiVersion

/-- The updating manager's fields became the applying manager's. Entries of another version
of the API than the applying manager's may be dropped with what they have. -/
structure Moved (csa ssa : String) (before after : List (Entry K)) : Prop where
  gone : NoClientSide csa after
  managed : ∀ p, Managed after p → Managed before p
  keeps : OneVersion csa ssa apiVersion before → ∀ p, Managed before p → Managed after p
  oneVersion : OneVersion csa ssa apiVersion before → OneVersion csa ssa apiVersion after

/-- UpgradeManagedFieldsPatch. There is no patch where there is no work to be done; else it
replaces the managed fields and names the version they were read at. -/
structure Upgrade (K Value : Type) (csa ssa : String) where
  patch : ManagedObject K Value → Nat → Except String (Option (List (Entry K) × Nat))
  idle : patch o version = .ok none ↔ NoClientSide csa o.entries
  moves : patch o version = .ok (some (moved, pinned)) → Moved csa ssa o.entries moved ∧
    pinned = version

/-! One that gathers the fields in one entry. -/

section Gathering
variable [DecidableEq K]

end Gathering
end TunnelOperator.Csaupgrade
