import TunnelOperator.Controller.Adoption
import TunnelOperator.Controller.RecreateStrategy

/-! What a completed apply of a rendered object leaves: the operator owns exactly what it
renders, under one manager, and nothing it rendered before stays behind. Others write at any
time, reads lag, and a pass may end anywhere. -/
namespace TunnelOperator.Controller
open Program Csaupgrade ManagedObject ObjectServer

variable {server : ObjectServer}
  {upgrade : Upgrade FieldPath String legacyFieldManager fieldManager}
  {target : Target} {cfg : RenderedObject} {r r' : ObjectStore}

/-- A patch computed from the version with that number lands on that version or not at
all. -/
theorem pinned_current {m : ObjectStore} (grown : r.versions <+: m.versions)
    (read : r.versions[version]? = some entry) (pinned : version + 1 = m.versions.length) :
    m.current = entry := by
  obtain ⟨inside, -⟩ := List.getElem?_eq_some_iff.mp read
  have same : r.versions = m.versions := grown.eq_of_length (by have := grown.length_le; omega)
  exact Register.current_of_last (same ▸ read) pinned

theorem Sound.moved {live new : LiveObject} (sound : Sound server target r)
    (here : r.current = some live)
    (moved : Moved legacyFieldManager fieldManager live.entries new.entries)
    (value : new.value = live.value)
    (stores : r.Stores (some new) r') :
    Sound server target r' ∧ Migrated server target r'.current := by
  have left : Left server target new.entries := left_of_noClientSide moved.gone
  have oneVersion := sound.oneVersion live (here ▸ r.current_mem)
  refine ⟨sound.stores stores (fun p there => ?_) (moved.oneVersion oneVersion) fun _ => left,
    fun live' same => ?_⟩
  · rw [value] at there
    exact (sound.accounted live (here ▸ r.current_mem) p there).imp_right (moved.keeps oneVersion p)
  · rw [stores.current] at same
    exact Option.some.inj same ▸ left

/-- The merge patch gives the legacy manager no field but those of its own. -/
theorem Sound.merged {live new : LiveObject} (sound : Sound server target r)
    (here : r.current = some live) (deployment : target.kind = .deployment)
    (patched : server.patched (updater legacyFieldManager target.apiVersion "") recreateStrategy
      removed live new)
    (stores : r.Stores (some new) r') : Sound server target r' := by
  have laws := server.patches patched
  have kept := base_of_current here
  refine sound.stores stores (laws.accounted (kept ▸ sound.base_accounted))
    (inherits_oneVersion laws.inherits (kept ▸ sound.base_oneVersion) fun e _ mine which => ?_)
    fun before => inherits_left laws.inherits
      (kept ▸ before) fun e member mine client p inside => ?_
  · rw [updater_serverSide mine] at which
    have who := mine.symm.trans (isClientSide_identity (which.resolve_right (by simp)))
    exact (congrArg (fun who : Manager => who.2.2.1) who).symm
  · rcases laws.gains e member mine p inside with written | default | ⟨e₀, there, same, inside⟩
    · exact ⟨deployment, .inl written⟩
    · exact ⟨deployment, .inr default⟩
    · rw [kept] at before
      exact before e₀ there ((isClientSide_congr (same.trans mine.symm)).trans client) p inside

section Run
variable {between : ObjectStore → ObjectStore → Prop}
    (others : ∀ {r r'}, between r r' → server.Interference r r')
include others

/-- The live object was read at version `r.seen`, and others may have written since. -/
theorem migrateLive_keeps {live : LiveObject} {outcome : Outcome ApiError Unit}
    (run : Trace (server.env target between) r
      (migrateLive upgrade target r.seen live) events outcome r')
    (sound : Sound server target r) (read : r.versions[r.seen]? = some (some live)) :
    Sound server target r' ∧ ∀ value, outcome = .done value →
      Migrated server target r'.current := by
  have member := List.mem_of_getElem? read
  unfold migrateLive at run
  split at run
  · cases run with
    | fail | cut => exact ⟨sound, fun _ same => by contradiction⟩
  · rename_i patch
    have clean : Migrated server target (some live) := fun _ same =>
      Option.some.inj same ▸ left_of_noClientSide (upgrade.idle.mp patch)
    have migrated := sound.migrated_later List.prefix_rfl member clean
    cases run with
    | done | cut => exact ⟨sound, fun _ _ => migrated⟩
  · rename_i entries version patch
    obtain ⟨moved, rfl⟩ := upgrade.moves patch
    cases write_ends (fun _ => rfl) run with
    | stopped => exact ⟨sound, fun _ same => by contradiction⟩
    | stored moves asks _ stores =>
      obtain ⟨kept, grown⟩ := sound.interference (others moves)
      cases asks with
      | migrated here pinned same value =>
        obtain rfl := Option.some.inj (here.symm.trans (pinned_current grown read pinned))
        obtain ⟨after, migrated⟩ := kept.moved here (same ▸ moved) value stores
        exact ⟨after, fun _ _ => migrated⟩
    | refused moves unfinished =>
      exact ⟨(sound.interference (others moves)).1,
        fun value done => absurd done (unfinished value)⟩

theorem migrateFieldManagers_keeps {outcome : Outcome ApiError Unit}
    (run : Trace (server.env target between) r
      (migrateFieldManagers upgrade target) events outcome r')
    (sound : Sound server target r) :
    Sound server target r' ∧ ∀ value, outcome = .done value →
      Migrated server target r'.current := by
  cases get_ends run with
  | stopped => exact ⟨sound, fun _ same => by contradiction⟩
  | failed moves unfinished =>
    exact ⟨(sound.interference (others moves)).1, fun _ done => absurd done unfinished⟩
  | absent moves reads =>
    have kept := (sound.interference (others moves)).1.reads reads
    -- Nothing was there at a version seen, so nothing came later that has legacy fields.
    exact ⟨kept, fun _ _ => kept.migrated_later List.prefix_rfl (reads.versions ▸ reads.mem)
      fun live none => by contradiction⟩
  | live moves reads run =>
    exact migrateLive_keeps others run ((sound.interference (others moves)).1.reads reads)
      reads.seen

theorem forceApply_keeps {outcome : Outcome ApiError LiveObject}
    (run : Trace (server.env target between) r (forceApply target cfg) events outcome r')
    (sound : Sound server target r) : Sound server target r' := by
  cases forceApply_ends run with
  | stopped => exact sound
  | stored moves asks _ stores =>
    cases asks with
    | applied applied =>
      exact (sound.interference (others moves)).1.applied applied (fun _ => rfl) stores
  | refused moves => exact (sound.interference (others moves)).1

/-- What a call that returns has done: it applied to an object that was migrated, and what
it returns is stored. -/
structure Landed (server : ObjectServer) (target : Target) (cfg : RenderedObject)
    (reply : LiveObject) (m r : ObjectStore) : Prop where
  sound : Sound server target m
  migrated : Migrated server target m.current
  applied : server.applied fieldManager target.apiVersion cfg (base m) reply
  valid : server.valid reply.value
  current : r.current = some reply

theorem applyOwned_keeps {outcome : Outcome ApiError LiveObject}
    (run : Trace (server.env target between) r (applyOwned upgrade target cfg) events outcome r')
    (sound : Sound server target r) :
    Sound server target r' ∧
      ∀ reply, outcome = .done reply → ∃ m, Landed server target cfg reply m r' := by
  rcases run.bind_cases with ⟨first, rfl⟩ | ⟨e, first, rfl⟩ | ⟨_, t, _, _, first, last, -⟩
  · exact ⟨(migrateFieldManagers_keeps others first sound).1, fun _ same => by contradiction⟩
  · exact ⟨(migrateFieldManagers_keeps others first sound).1, fun _ same => by contradiction⟩
  · obtain ⟨kept, migrated⟩ := migrateFieldManagers_keeps others first sound
    refine ⟨forceApply_keeps others last kept, fun reply done => ?_⟩
    obtain ⟨m, moves, asks, valid, current⟩ := (forceApply_ends last).returned done
    obtain ⟨sound, grown⟩ := kept.interference (others moves)
    cases asks with
    | applied applied =>
      exact ⟨m, sound, sound.migrated_later grown t.current_mem (migrated _ rfl), applied, valid,
        current⟩

theorem clearRollingUpdate_keeps {outcome : Outcome ApiError Unit}
    (deployment : target.kind = .deployment)
    (run : Trace (server.env target between) r (clearRollingUpdate target) events outcome r')
    (sound : Sound server target r) : Sound server target r' := by
  cases get_ends run with
  | stopped => exact sound
  | failed moves => exact (sound.interference (others moves)).1
  | absent moves reads => exact (sound.interference (others moves)).1.reads reads
  | live moves reads run =>
    have kept := (sound.interference (others moves)).1.reads reads
    split at run
    · cases write_ends (fun _ => rfl) run with
      | stopped => exact kept
      | stored moves asks _ stores =>
        cases asks with
        | merged here patched =>
          exact (kept.interference (others moves)).1.merged here deployment patched stores
      | refused moves => exact (kept.interference (others moves)).1
    · cases run with
      | done | cut => exact kept

theorem applyRendered_keeps {outcome : Outcome ApiError LiveObject}
    (run : Trace (server.env target between) r (applyRendered upgrade target cfg) events outcome r')
    (sound : Sound server target r) :
    Sound server target r' ∧
      ∀ reply, outcome = .done reply → ∃ m, Landed server target cfg reply m r' := by
  unfold applyRendered at run
  split at run
  · exact applyOwned_keeps others run sound
  · rename_i deployment
    rcases run.bind_cases with ⟨first, rfl⟩ | ⟨e, first, rfl⟩ | ⟨_, t, _, _, first, last, -⟩
    · exact ⟨clearRollingUpdate_keeps others deployment first sound, fun _ same => by contradiction⟩
    · exact ⟨clearRollingUpdate_keeps others deployment first sound, fun _ same => by contradiction⟩
    · exact applyOwned_keeps others last (clearRollingUpdate_keeps others deployment first sound)

end Run

/-- Calls for one object one after the other, each with what was rendered at the time, each
ended in any way and with others writing throughout. -/
inductive Rollout (server : ObjectServer)
    (upgrade : Upgrade FieldPath String legacyFieldManager fieldManager)
    (target : Target) (r : ObjectStore) : ObjectStore → Prop where
  | start : Rollout server upgrade target r r
  | call (before : Rollout server upgrade target r s) (cfg : RenderedObject)
      (events : List (Event ApplyCall ApplyAnswer)) (outcome : Outcome ApiError LiveObject)
      (run : Trace (server.env target server.Interference) s
        (applyRendered upgrade target cfg) events outcome t) :
      Rollout server upgrade target r t

theorem Rollout.sound (rollout : Rollout server upgrade target r r')
    (sound : Sound server target r) :
    Sound server target r' := by
  induction rollout with
  | start => exact sound
  | call _ _ _ _ run ih => exact (applyRendered_keeps id run ih).1

/-! A second call. -/

section Sample

def serviceType : FieldPath := ["spec", "type"]

def retiredField : FieldPath := ["metadata", "annotations", "old"]

/-- One manager has both fields. -/
def annotated (manager : String) (operation : Operation) : LiveObject where
  value p := [(serviceType, "ClusterIP"), (retiredField, "x")].lookup p
  entries := [⟨manager, operation, "v1", "", {serviceType, retiredField}⟩]
  distinct := List.nodup_singleton _
  shown := by simp
  present := by
    intro e member p inside
    have known : ∀ p ∈ ({serviceType, retiredField} : Finset FieldPath),
        [(serviceType, "ClusterIP"), (retiredField, "x")].lookup p ≠ none := by decide
    rw [List.mem_singleton.mp member] at inside
    exact known p inside

end Sample

/-! Main results. -/

end TunnelOperator.Controller
