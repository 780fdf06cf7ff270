import TunnelOperator.Agent.DeviceConvergence

/-! A configuration that was computed from the device as it was read, applied to the device
as others, who configured it for the same state, have left it since. -/
namespace TunnelOperator.Agent
open Net Netip

variable {state : State} {d device : Device}

/-- An entry that was computed for the state from some device. -/
def Wants (state : State) (p : PeerConfig) : Prop := ∃ d, EntryFor state d p

/-- The device is the one read, `d`, or one closer to the state. -/
structure Improves (state : State) (d device : Device) : Prop where
  owners : key ∈ device.owners → (∃ w, Desired state w ∧ w.publicKey = key) ∨ key ∈ d.owners
  right : Desired state w → w ∈ d.peers → w ∈ device.peers
  known : Desired state w → w.publicKey ∈ d.owners → w.publicKey ∈ device.owners
  within : Desired state w → (∀ item ∈ d.held w.publicKey, item ∈ w.allowedIPs) →
    ∀ item ∈ device.held w.publicKey, item ∈ w.allowedIPs

theorem Improves.refl (state : State) (d : Device) : Improves state d d where
  owners := .inr
  right _ := id
  known _ := id
  within _ := id

theorem Improves.trans {e : Device} (first : Improves state d e)
    (second : Improves state e device) :
    Improves state d device where
  owners member := (second.owners member).elim .inl first.owners
  right desired there := second.right desired (first.right desired there)
  known desired there := second.known desired (first.known desired there)
  within desired inside := second.within desired (first.within desired inside)

/-- The entry for a peer of the state brings its address. -/
theorem Wants.own (servable : Servable state) (wants : Wants state p) (desired : Desired state w)
    (same : p.publicKey = w.publicKey) :
    p.remove = false ∧ p.allowedIPs = w.allowedIPs := by
  obtain ⟨d, entry⟩ := wants
  cases entry with
  | remove present undesired => exact absurd same.symm (undesired w desired)
  | update present wanted keyed differs =>
    obtain rfl := wanted.unique servable desired (keyed.trans same)
    exact ⟨rfl, rfl⟩
  | add wanted absent =>
    obtain rfl := wanted.unique servable desired same
    exact ⟨rfl, rfl⟩

theorem Desired.once (desired : Desired state w) : w.allowedIPs.Nodup := by
  obtain ⟨peer, -, -, bits, -, single⟩ := desired
  rw [single]
  exact List.nodup_singleton _

/-- The entry for a peer of the state that has nothing but its address gives it that. -/
theorem Wants.settles (servable : Servable state) (wants : Wants state p)
    (desired : Desired state w)
    (same : p.publicKey = w.publicKey) (found : p.updateOnly = true → p.publicKey ∈ device.owners)
    (within : ∀ item ∈ device.held w.publicKey, item ∈ w.allowedIPs) :
    w.publicKey ∈ (device.apply p.change).owners ∧ (device.apply p.change).held w.publicKey =
      w.allowedIPs := by
  obtain ⟨keeps, items⟩ := wants.own servable desired same
  have settles : p.change.Settles device := {
    keeps := keeps
    found := found
    within := .inr (by simpa only [PeerConfig.change, same, items] using within)
    once := by simpa only [PeerConfig.change, items] using desired.once }
  simpa only [PeerConfig.change, same, items] using settles.spec

/-- A peer of the state that is right stays right. -/
theorem Wants.keeps (servable : Servable state) (wants : Wants state p) (desired : Desired state w)
    (there : w ∈ device.peers) : w ∈ Device.peers (device.apply p.change) := by
  obtain ⟨owner, holds⟩ := mem_peers.mp there
  by_cases same : p.publicKey = w.publicKey
  · exact mem_peers.mpr (wants.settles servable desired same (fun _ => same ▸ owner)
      (by simp [holds]))
  · obtain ⟨d, entry⟩ := wants
    have apart : w.publicKey ≠ p.change.owner := fun equal => same equal.symm
    refine mem_peers.mpr ⟨(Ownership.mem_apply apart).mpr owner,
      (Ownership.held_apply apart ?_).trans holds⟩
    intro item taken held
    rw [holds] at held
    exact entry.spares servable desired same taken held

theorem Improves.apply (servable : Servable state) (improves : Improves state d device)
    (wants : Wants state p) :
    Improves state d (device.apply p.change) where
  owners := by
    intro key member
    by_cases same : key = p.change.owner
    · subst same
      obtain ⟨d', entry⟩ := wants
      cases entry with
      | remove present undesired => exact absurd member (Ownership.apply_removes rfl)
      | update present wanted keyed differs => exact .inl ⟨_, wanted, keyed⟩
      | add wanted absent => exact .inl ⟨_, wanted, rfl⟩
    · exact improves.owners ((Ownership.mem_apply same).mp member)
  right desired there := wants.keeps servable desired (improves.right desired there)
  known := by
    intro w desired there
    have before := improves.known desired there
    by_cases same : p.publicKey = w.publicKey
    · rw [← same] at before ⊢
      have keeps : p.change.remove = false := (wants.own servable desired same).1
      exact Ownership.mem_apply_own keeps fun _ => before
    · exact (Ownership.mem_apply fun equal => same equal.symm).mpr before
  within := by
    intro w desired inside item held
    by_cases same : p.publicKey = w.publicKey
    · by_cases found : p.updateOnly = true → p.publicKey ∈ device.owners
      · rw [(wants.settles servable desired same found (improves.within desired inside)).2] at held
        exact held
      · -- An entry for a peer that the device does not have changes nothing.
        have keeps : p.change.remove = false := (wants.own servable desired same).1
        rw [Ownership.apply_missing keeps found] at held
        exact improves.within desired inside item held
    · exact improves.within desired inside item
        (Ownership.mem_held_apply (fun equal => same equal.symm) held)

theorem Improves.applyAll (servable : Servable state) {entries : List PeerConfig}
    (improves : Improves state d device)
    (wants : ∀ p ∈ entries, Wants state p) :
    Improves state d (device.applyAll (entries.map PeerConfig.change)) := by
  induction entries generalizing device with
  | nil => exact improves
  | cons p rest ih =>
    obtain ⟨first, later⟩ := List.forall_mem_cons.mp wants
    exact ih (improves.apply servable first) later

/-- A device with exactly the peers of the state. -/
def Settled (state : State) (device : Device) : Prop := ∀ w, w ∈ device.peers ↔ Desired state w

/-- The peers of a device are told apart by their keys. -/
theorem peers_unique (first : v ∈ device.peers) (second : w ∈ device.peers)
    (same : v.publicKey = w.publicKey) : v = w := by
  obtain ⟨-, one⟩ := mem_peers.mp first
  obtain ⟨-, two⟩ := mem_peers.mp second
  obtain ⟨key, ips⟩ := v
  obtain ⟨key', ips'⟩ := w
  obtain rfl : key = key' := same
  obtain rfl : ips = ips' := one.symm.trans two
  rfl

theorem Settled.improved (settled : Settled state d) (improves : Improves state d device) :
    Settled state device := by
  have right : ∀ {w}, Desired state w → w ∈ device.peers := fun desired =>
    improves.right desired ((settled _).mpr desired)
  refine fun w => ⟨fun member => ?_, right⟩
  obtain ⟨v, desired, same⟩ : ∃ v, Desired state v ∧ v.publicKey = w.publicKey := by
    rcases improves.owners (mem_peers.mp member).1 with wanted | owner
    · exact wanted
    · exact ⟨⟨w.publicKey, d.held w.publicKey⟩, (settled _).mp (mem_peers.mpr ⟨owner, rfl⟩), rfl⟩
  exact peers_unique (right desired) member same ▸ desired

/-- The entries for the device as it was read settle the device as it is. -/
theorem applied_stale (servable : Servable state) (improves : Improves state d device)
    {entries : List PeerConfig} (same : entries.Perm (deviceEntries state d)) :
    Settled state (device.applyAll (entries.map PeerConfig.change)) := by
  have apart := (deviceEntries_apart servable d).perm (same.map _).symm
  have entry : ∀ p, p ∈ entries ↔ EntryFor state d p :=
    fun p => same.mem_iff.trans (mem_deviceEntries servable)
  have after := improves.applyAll servable fun p member => ⟨d, (entry p).mp member⟩
  have settles : ∀ {p w}, EntryFor state d p → p.change.Settles device → p.publicKey = w.publicKey →
      p.allowedIPs = w.allowedIPs →
        w ∈ Device.peers (device.applyAll (entries.map PeerConfig.change)) := by
    intro p w found settles key ips
    have landed := Ownership.applyAll_settles apart
      (List.mem_map_of_mem ((entry p).mpr found)) settles
    rw [mem_peers, ← key, ← ips]
    exact landed
  have right : ∀ {w}, Desired state w →
      w ∈ Device.peers (device.applyAll (entries.map PeerConfig.change)) := by
    intro w desired
    by_cases there : w ∈ d.peers
    · exact after.right desired there
    by_cases owner : w.publicKey ∈ d.owners
    · have present : ⟨w.publicKey, d.held w.publicKey⟩ ∈ d.peers := mem_peers.mpr ⟨owner, rfl⟩
      have differs : w ≠ ⟨w.publicKey, d.held w.publicKey⟩ := fun equal => there (equal ▸ present)
      exact settles (.update present desired rfl differs)
        ⟨rfl, fun _ => improves.known desired owner, .inl rfl, desired.once⟩ rfl rfl
    · exact settles (.add desired owner)
        ⟨rfl, fun update => absurd update (by simp [PeerConfig.change]),
        .inr (improves.within desired (by simp [held_of_absent owner])), desired.once⟩ rfl rfl
  refine fun w => ⟨fun member => ?_, right⟩
  by_cases wanted : ∃ v, Desired state v ∧ v.publicKey = w.publicKey
  · obtain ⟨v, desired, key⟩ := wanted
    exact peers_unique (right desired) member key ▸ desired
  · -- A peer the state does not have was read, and removed.
    have owner := (after.owners (mem_peers.mp member).1).resolve_left wanted
    have present : ⟨w.publicKey, d.held w.publicKey⟩ ∈ d.peers := mem_peers.mpr ⟨owner, rfl⟩
    have removes := EntryFor.remove present fun v desired key => wanted ⟨v, desired, key⟩
    exact absurd (mem_peers.mp member).1
      ((Ownership.applyAll_change apart (List.mem_map_of_mem ((entry _).mpr removes))).1 rfl)

end TunnelOperator.Agent
