import TunnelOperator.Controller.Apply

/-! What every version of an applied object satisfies, and that the writes of others keep
it. -/
namespace TunnelOperator.Controller
open Program Csaupgrade ManagedObject ObjectServer

variable {server : ObjectServer} {target : Target} {r r' : ObjectStore}

/-- The fields that a merge patch of the operator may give to the legacy manager. Only a
Deployment gets one. -/
def patchedFields (server : ObjectServer) (target : Target) (p : FieldPath) : Prop :=
  target.kind = .deployment ∧ (p ∈ recreateStrategy.fields ∨ server.defaulted p)

/-- The legacy manager has no field but such ones. -/
def Left (server : ObjectServer) (target : Target) (entries : List (Entry FieldPath)) : Prop :=
  ∀ e ∈ entries, isClientSide legacyFieldManager e = true → ∀ p ∈ e.fields,
    patchedFields server target p

def Migrated (server : ObjectServer) (target : Target) (entry : Option LiveObject) : Prop :=
  ∀ live, entry = some live → Left server target live.entries

/-- What every version of the object satisfies. A version the legacy manager has no other
field of is never followed by one it has another field of. -/
structure Sound (server : ObjectServer) (target : Target) (r : ObjectStore) : Prop where
  accounted : ∀ o, some o ∈ r.versions → o.Accounted server.defaulted
  oneVersion : ∀ o, some o ∈ r.versions →
    OneVersion legacyFieldManager fieldManager target.apiVersion o.entries
  migrated : r.Grows (Migrated server target)

/-! Objects. -/

theorem left_of_noClientSide {entries : List (Entry FieldPath)}
    (none : NoClientSide legacyFieldManager entries) :
    Left server target entries := by
  intro e member client
  rw [none e member] at client
  contradiction

section Writes
variable {who : Manager} {old new : LiveObject} (inherits : Inherits who old new)
include inherits

theorem inherits_oneVersion (oneVersion : OneVersion legacyFieldManager fieldManager v old.entries)
    (own : ∀ e ∈ new.entries, e.identity = who →
      isClientSide legacyFieldManager e = true ∨ isServerSide fieldManager e = true →
        e.apiVersion = v) :
    OneVersion legacyFieldManager fieldManager v new.entries := by
  intro e member which
  rcases inherits e member with mine | ⟨e₀, remains⟩
  · exact own e member mine which
  · refine remains.apiVersion.symm.trans (oneVersion e₀ remains.member ?_)
    rw [isClientSide_congr remains.identity, isServerSide_iff, remains.identity, ← isServerSide_iff]
    exact which

theorem inherits_left (left : Left server target old.entries)
    (own : ∀ e ∈ new.entries, e.identity = who → isClientSide legacyFieldManager e = true →
      ∀ p ∈ e.fields, patchedFields server target p) : Left server target new.entries := by
  intro e member client p inside
  rcases inherits e member with mine | ⟨e₀, remains⟩
  · exact own e member mine client p inside
  · rw [← isClientSide_congr remains.identity] at client
    exact left e₀ remains.member client p (remains.fields inside)

end Writes

/-- An update by another manager is not the legacy manager's. -/
theorem other_clientSide {e : Entry FieldPath}
    (other : ¬ (name = legacyFieldManager ∧ subresource = ""))
    (mine : e.identity = updater name apiVersion subresource) :
    isClientSide legacyFieldManager e = false := by
  refine Bool.eq_false_iff.mpr fun client => other ?_
  have who := mine.symm.trans (isClientSide_identity client)
  exact ⟨congrArg Prod.fst who, congrArg (fun who : Manager => who.2.2.2) who⟩

theorem updater_serverSide {e : Entry FieldPath}
    (mine : e.identity = updater name apiVersion subresource) :
    isServerSide fieldManager e = false := by
  refine Bool.eq_false_iff.mpr fun applies => ?_
  have who := mine.symm.trans (isServerSide_iff.mp applies)
  exact absurd (congrArg (fun who : Manager => who.2.1) who) (by simp [updater, applier])

/-! The invariant. -/

theorem base_cases (r : ObjectStore) :
    r.current = some (base r) ∨ (r.current = none ∧ base r = .empty) := by
  unfold base
  cases r.current with
  | none => exact .inr ⟨rfl, rfl⟩
  | some live => exact .inl rfl

theorem Sound.base_accounted (sound : Sound server target r) :
    (base r).Accounted server.defaulted := by
  rcases base_cases r with here | ⟨-, empty⟩
  · exact sound.accounted _ (here ▸ r.current_mem)
  · rw [empty]
    exact fun p there => absurd rfl there

theorem Sound.base_oneVersion (sound : Sound server target r) :
    OneVersion legacyFieldManager fieldManager target.apiVersion (base r).entries := by
  rcases base_cases r with here | ⟨-, empty⟩
  · exact sound.oneVersion _ (here ▸ r.current_mem)
  · rw [empty]
    exact fun e member => absurd member List.not_mem_nil

theorem Migrated.base (migrated : Migrated server target r.current) :
    Left server target (base r).entries := by
  rcases base_cases r with here | ⟨-, empty⟩
  · exact migrated _ here
  · rw [empty]
    exact fun e member => absurd member List.not_mem_nil

theorem Sound.stores {new : LiveObject} (sound : Sound server target r)
    (stores : r.Stores (some new) r') (accounted : new.Accounted server.defaulted)
    (oneVersion : OneVersion legacyFieldManager fieldManager target.apiVersion new.entries)
    (migrated : Left server target (base r).entries → Left server target new.entries) :
    Sound server target r' where
  accounted o member := by
    rcases stores.mem member with old | here
    · exact sound.accounted o old
    · exact Option.some.inj here ▸ accounted
  oneVersion o member := by
    rcases stores.mem member with old | here
    · exact sound.oneVersion o old
    · exact Option.some.inj here ▸ oneVersion
  migrated := sound.migrated.stores stores fun before live same =>
    Option.some.inj same ▸ migrated before.base

theorem Sound.reads {entry : Option LiveObject} (sound : Sound server target r)
    (reads : r.Reads entry r') :
    Sound server target r' where
  accounted := reads.versions ▸ sound.accounted
  oneVersion := reads.versions ▸ sound.oneVersion
  migrated := sound.migrated.reads reads

theorem Sound.deleted (sound : Sound server target r) (stores : r.Stores none r') :
    Sound server target r' where
  accounted o member := sound.accounted o ((stores.mem member).resolve_right (by simp))
  oneVersion o member := sound.oneVersion o ((stores.mem member).resolve_right (by simp))
  migrated := sound.migrated.stores stores fun _ live same => by contradiction

/-- An apply by anybody keeps the invariant. -/
theorem Sound.applied {new : LiveObject} (sound : Sound server target r)
    (applied : server.applied name apiVersion obj (base r) new)
    (version : name = fieldManager → apiVersion = target.apiVersion)
    (stores : r.Stores (some new) r') :
    Sound server target r' := by
  have laws := server.applies applied
  refine sound.stores stores (laws.accounted sound.base_accounted)
    (inherits_oneVersion laws.inherits sound.base_oneVersion fun e member mine which => ?_)
        fun before =>
    inherits_left laws.inherits before fun e _ mine client => ?_
  · rw [laws.owns.version e member mine]
    rw [isClientSide_applier mine, isServerSide_iff, mine] at which
    exact version (congrArg Prod.fst (which.resolve_left (by simp)))
  · rw [isClientSide_applier mine] at client
    contradiction

/-- A write by somebody else keeps the invariant. -/
theorem Sound.otherWrite (sound : Sound server target r) (write : server.OtherWrite r r') :
    Sound server target r' ∧ r.versions <+: r'.versions := by
  cases write with
  | update name apiVersion subresource other updated stores =>
    have laws := server.updates updated
    refine ⟨sound.stores stores (laws.accounted sound.base_accounted)
      (inherits_oneVersion laws.inherits sound.base_oneVersion fun e _ mine which => ?_)
          fun before =>
      inherits_left laws.inherits before fun e _ mine client => ?_, stores.extends⟩
    · rw [other_clientSide other mine, updater_serverSide mine] at which
      simp at which
    · rw [other_clientSide other mine] at client
      contradiction
  | apply name apiVersion obj other applied stores =>
    exact ⟨sound.applied applied (fun same => absurd same other) stores, stores.extends⟩
  | delete stores => exact ⟨sound.deleted stores, stores.extends⟩

theorem Sound.interference (sound : Sound server target r) (moves : server.Interference r r') :
    Sound server target r' ∧ r.versions <+: r'.versions := by
  induction moves with
  | refl => exact ⟨sound, List.prefix_rfl⟩
  | tail _ write ih =>
    obtain ⟨kept, moved⟩ := ih.1.otherWrite write
    exact ⟨kept, ih.2.trans moved⟩

/-- Once a version without legacy fields was stored, there are none. -/
theorem Sound.migrated_later (sound : Sound server target r') (grown : r.versions <+: r'.versions)
    (stored : entry ∈ r.versions) (migrated : Migrated server target entry) :
    Migrated server target r'.current :=
  sound.migrated.le_current (grown.subset stored) migrated

end TunnelOperator.Controller
