import TunnelOperator.Agent.DeviceProofs
import TunnelOperator.Agent.StateFile

/-! The configuration the agent computes brings every device to the peers of the state,
whatever the order of its entries, and leaves alone the peers that are right already. -/
namespace TunnelOperator.Agent
open Net Netip

section Convergence
variable {state : State} {device : Device}

/-- The entries are about different peers and take different networks. -/
theorem deviceEntries_apart (servable : Servable state) (device : Device) :
    Ownership.Apart ((deviceEntries state device).map PeerConfig.change) := by
  have distinct := deviceEntries_distinct servable device
  rw [List.Nodup, List.pairwise_map] at distinct
  rw [Ownership.Apart, List.pairwise_map]
  refine distinct.imp_of_mem ?_
  intro p q first second apart
  have keys : p.publicKey ≠ q.publicKey := fun same => apart (congrArg _ same)
  refine ⟨keys, ?_⟩
  rcases ((mem_deviceEntries servable).mp second).takes with nothing | ⟨w, desired, same, takes⟩
  · rw [nothing]
    exact List.disjoint_nil_right _
  · rw [takes]
    exact ((mem_deviceEntries servable).mp first).spares servable desired (by rwa [same])

theorem held_of_absent {key : Wgtypes.Key} (absent : key ∉ device.owners) :
    device.held key = [] := by
  rw [Ownership.held, List.map_eq_nil_iff, List.filter_eq_nil_iff]
  intro item member same
  exact absent (of_decide_eq_true same ▸ device.owned item member)

/-- No entry is about a peer that is right already. -/
theorem EntryFor.untouched (servable : Servable state) (entry : EntryFor state device p)
    (desired : Desired state d) (settled : d ∈ device.peers) : p.publicKey ≠ d.publicKey := by
  obtain ⟨owner, holds⟩ := mem_peers.mp settled
  intro equal
  cases entry with
  | remove present undesired => exact undesired d desired equal.symm
  | @update found w present wanted keyed differs =>
    have first := (mem_peers.mp present).2
    obtain rfl := wanted.unique servable desired (keyed.trans equal)
    refine differs ?_
    obtain ⟨key, allowed⟩ := w
    obtain ⟨key', allowed'⟩ := found
    obtain rfl : key' = key := equal
    rw [← show _ = allowed from holds, ← show _ = allowed' from first]
  | @add w wanted absent =>
    have keyed : w.publicKey = d.publicKey := equal
    exact absent (keyed ▸ owner)

/-- A peer that is not right yet has an entry that makes it right. -/
theorem exists_entry (desired : Desired state w) (unsettled : w ∉ device.peers) :
    ∃ p, EntryFor state device p ∧ p.change.Lands device ∧ p.publicKey = w.publicKey ∧
      p.allowedIPs = w.allowedIPs := by
  obtain ⟨peer, -, -, bits, -, single⟩ := id desired
  have once : w.allowedIPs.Nodup := by
    rw [single]
    exact List.nodup_singleton _
  by_cases owner : w.publicKey ∈ device.owners
  · have present : ⟨w.publicKey, device.held w.publicKey⟩ ∈ device.peers :=
      mem_peers.mpr ⟨owner, rfl⟩
    have differs : w ≠ ⟨w.publicKey, device.held w.publicKey⟩ :=
      fun same => unsettled (same ▸ present)
    exact ⟨_, .update present desired rfl differs, ⟨rfl, fun _ => owner, .inl rfl, once⟩, rfl, rfl⟩
  · exact ⟨_, .add desired owner, ⟨rfl, nofun, .inr (held_of_absent owner), once⟩, rfl, rfl⟩

/-- Whatever the order of the entries, the device ends up with the peers of the state. -/
theorem mem_applied (servable : Servable state) {entries : List PeerConfig}
    (same : entries.Perm (deviceEntries state device)) :
    w ∈ Device.peers (device.applyAll (entries.map PeerConfig.change)) ↔ Desired state w := by
  have apart := (deviceEntries_apart servable device).perm (same.map _).symm
  have entry : ∀ p, p ∈ entries ↔ EntryFor state device p := fun p =>
    same.mem_iff.trans (mem_deviceEntries servable)
  have spares : ∀ key, (∀ p ∈ entries, key ≠ p.publicKey) →
      ∀ change ∈ entries.map PeerConfig.change, key ≠ change.owner := by
    intro key others change member
    obtain ⟨p, here, rfl⟩ := List.mem_map.mp member
    exact others p here
  have reached : ∀ {w}, Desired state w →
      w.publicKey ∈ (device.applyAll (entries.map PeerConfig.change)).owners ∧
        (device.applyAll (entries.map PeerConfig.change)).held w.publicKey = w.allowedIPs := by
    intro w desired
    by_cases settled : w ∈ device.peers
    · obtain ⟨owner, holds⟩ := mem_peers.mp settled
      have others : ∀ p ∈ entries, w.publicKey ≠ p.publicKey := fun p here =>
        (((entry p).mp here).untouched servable desired settled).symm
      obtain ⟨stays, keeps⟩ := Ownership.applyAll_spares (t := device) (spares _ others)
      refine ⟨stays.mpr owner, (keeps ?_).trans holds⟩
      intro change member item taken
      obtain ⟨p, here, rfl⟩ := List.mem_map.mp member
      rw [holds]
      exact ((entry p).mp here).spares servable desired (others p here).symm taken
    · obtain ⟨p, found, lands, keyed, allowed⟩ := exists_entry desired settled
      have landed := (Ownership.applyAll_change apart
        (List.mem_map_of_mem ((entry p).mpr found))).2 lands
      rw [← keyed, ← allowed]
      exact landed
  constructor
  · intro member
    obtain ⟨owner, holds⟩ := mem_peers.mp member
    by_cases wanted : ∃ v, Desired state v ∧ v.publicKey = w.publicKey
    · obtain ⟨v, desired, keyed⟩ := wanted
      have allowed : v.allowedIPs = w.allowedIPs := (reached desired).2.symm.trans (keyed ▸ holds)
      obtain ⟨key, ips⟩ := v
      obtain ⟨key', ips'⟩ := w
      obtain rfl : key = key' := keyed
      obtain rfl : ips = ips' := allowed
      exact desired
    · -- A peer the state does not have was removed, or never there.
      exfalso
      have undesired : ∀ v, Desired state v → v.publicKey ≠ w.publicKey := fun v desired keyed =>
        wanted ⟨v, desired, keyed⟩
      by_cases before : w.publicKey ∈ device.owners
      · have present : ⟨w.publicKey, device.held w.publicKey⟩ ∈ device.peers :=
          mem_peers.mpr ⟨before, rfl⟩
        exact (Ownership.applyAll_change apart (List.mem_map_of_mem ((entry _).mpr
          (.remove present undesired)))).1 rfl owner
      · have others : ∀ p ∈ entries, w.publicKey ≠ p.publicKey := by
          intro p here equal
          cases (entry p).mp here with
          | remove present _ => exact before (equal ▸ (mem_peers.mp present).1)
          | update present _ _ _ => exact before (equal ▸ (mem_peers.mp present).1)
          | add desired _ => exact undesired _ desired equal.symm
        exact before ((Ownership.applyAll_spares (t := device) (spares _ others)).1.mp owner)
  · exact fun desired => mem_peers.mpr (reached desired)

/-- A device with the peers of the state needs no entry. -/
theorem no_entries (servable : Servable state) (settled : ∀ d, d ∈ device.peers ↔ Desired state d) :
    deviceEntries state device = [] := by
  rw [List.eq_nil_iff_forall_not_mem]
  intro p member
  cases (mem_deviceEntries servable).mp member with
  | remove present undesired => exact undesired _ ((settled _).mp present) rfl
  | update present desired same differs =>
    exact differs (desired.unique servable ((settled _).mp present) same)
  | add desired absent => exact absent (mem_peers.mp ((settled _).mpr desired)).1

/-- What the operator writes can be served. -/
theorem Servable.of_listable (listable : Controller.Listable wg state.peers)
    (minted : state.serverPrivateKey = Wgtypes.Key.string key) : Servable state where
  keys := listable.keys
  canonical := listable.canonical
  addresses := listable.addresses
  ipv4 peer member := by
    obtain ⟨range, -, holds⟩ := listable.inside
    obtain ⟨bits, address, -⟩ := holds peer member
    exact ⟨bits, address⟩
  serverKey := ⟨key, by rw [minted, Wgtypes.parseKey_string]⟩

theorem peerProblem_none {peers : List WireguardPeer}
    (addressed : ∀ peer ∈ peers, peer.status.address ≠ "")
    (keyed : ∀ peer ∈ peers, peer.spec.publicKey ≠ "") (i : Nat) : peerProblem peers i = none := by
  induction peers generalizing i with
  | nil => rfl
  | cons peer rest ih =>
    obtain ⟨address, addressed⟩ := List.forall_mem_cons.mp addressed
    obtain ⟨key, keyed⟩ := List.forall_mem_cons.mp keyed
    rw [peerProblem, if_neg address, if_neg key]
    exact ih addressed keyed (i + 1)

/-- The agent does not reject what the operator writes. -/
theorem isStateValid_of_servable (servable : Servable state)
    (minted : state.serverPrivateKey = Wgtypes.Key.string key) : isStateValid state = none := by
  rw [isStateValid, minted, if_neg key.string_ne_empty, if_neg (by simp [key.string_size])]
  refine peerProblem_none (fun peer member => ?_) (fun peer member => ?_) 0
  · obtain ⟨bits, address⟩ := servable.ipv4 peer member
    rw [address]
    exact string_v4_ne_empty bits
  · exact (servable.canonical peer member).ne_empty

/-- For every state of different canonical keys and IPv4 addresses and for every device,
the agent computes a configuration; its entries leave the right peers alone; applied in
any order they leave exactly the peers of the state, each with its address as only
allowed IP; and the configuration computed next has no entries. -/
theorem device_converges (state : State) (servable : Servable state) (device : Device)
    (order later : MapOrder PeerConfig) (listenPort : Int) :
    ∃ cfg, createWireguardConfiguration order (.ok device) state listenPort = .ok cfg ∧
      (∀ p ∈ cfg.peers, ∀ d ∈ device.peers, Desired state d →
        p.publicKey ≠ d.publicKey ∧ p.change.takes.Disjoint d.allowedIPs) ∧
      (∀ d, d ∈ Device.peers (configureDevice device cfg) ↔ Desired state d) ∧
      ∃ cfg', createWireguardConfiguration later
        (.ok (configureDevice device cfg)) state listenPort = .ok cfg' ∧
        cfg'.peers = [] := by
  obtain ⟨cfg, created, keeps, same⟩ :=
    createWireguardConfiguration_ok servable order device listenPort
  have applied : configureDevice device cfg = device.applyAll
      (cfg.peers.map PeerConfig.change) := by
    simp [configureDevice, keeps]
  have reached : ∀ d, d ∈ Device.peers (configureDevice device cfg) ↔ Desired state d := by
    intro d
    rw [applied]
    exact mem_applied servable same
  refine ⟨cfg, created, ?_, reached, ?_⟩
  · intro p member d settled desired
    have entry := (mem_deviceEntries servable).mp (same.mem_iff.mp member)
    have apart := entry.untouched servable desired settled
    exact ⟨apart, entry.spares servable desired apart⟩
  · obtain ⟨cfg', created', -, same'⟩ :=
      createWireguardConfiguration_ok servable later (configureDevice device cfg) listenPort
    refine ⟨cfg', created', ?_⟩
    rw [no_entries servable reached] at same'
    exact same'.eq_nil

end Convergence

/-! Two peers that swap their addresses while a third leaves its own to a new one. -/

section Swap

def swapKey (n : UInt8) : Wgtypes.Key := .filled n

def swapPeer (n : UInt8) (address : String) : WireguardPeer :=
  { Controller.samplePeer "peer" 1 (swapKey n).string with
    status := { WireguardPeerStatus.empty with address := address } }

def swapState : State :=
  ⟨Controller.sampleServer, (swapKey 9).string,
    [swapPeer 1 "10.8.0.3", swapPeer 2 "10.8.0.2", swapPeer 4 "10.8.0.4", swapPeer 5 "10.8.0.5"]⟩

def swapNet (host : BitVec 32) : IPNet := Prefix.single (.v4 (0x0a080000#32 + host))

/-- The device routes .2 to the first peer, .3 and a network to the second, .4 to a peer
the state does not have, and .5 as it should. -/
def swapDevice : Device where
  owners := [swapKey 1, swapKey 2, swapKey 3, swapKey 5]
  items := [(swapNet 2, swapKey 1), (swapNet 3, swapKey 2),
    (⟨.v4 0x0a090000#32, 24, by decide⟩, swapKey 2), (swapNet 4, swapKey 3), (swapNet 5, swapKey 5)]
  distinct := by decide
  single := by decide
  owned := by decide

def backwards : MapOrder PeerConfig := ⟨List.reverse, List.reverse_perm⟩

theorem swapState_servable : Servable swapState where
  keys := by decide +kernel
  canonical := by
    intro peer member
    simp only [swapState, List.mem_cons, List.not_mem_nil, or_false] at member
    rcases member with rfl | rfl | rfl | rfl <;> exact ⟨swapKey _, rfl⟩
  addresses := by decide
  ipv4 := by
    intro peer member
    simp only [swapState, List.mem_cons, List.not_mem_nil, or_false] at member
    rcases member with rfl | rfl | rfl | rfl
    · exact ⟨0x0a080003#32, by decide⟩
    · exact ⟨0x0a080002#32, by decide⟩
    · exact ⟨0x0a080004#32, by decide⟩
    · exact ⟨0x0a080005#32, by decide⟩
  serverKey := ⟨swapKey 9, Wgtypes.parseKey_string _⟩

theorem swap_converges :
    ∃ cfg, createWireguardConfiguration backwards (.ok swapDevice) swapState 51820 = .ok cfg ∧
    cfg.peers.length = 4 ∧ ∀ d, d ∈ Device.peers (configureDevice swapDevice cfg) ↔
      Desired swapState d := by
  obtain ⟨cfg, created, -, reached, -⟩ :=
    device_converges swapState swapState_servable swapDevice backwards backwards 51820
  have four : (createWireguardConfiguration backwards (.ok swapDevice) swapState 51820).toOption.map
      (·.peers.length) = some 4 := by decide +kernel
  rw [created] at four
  exact ⟨cfg, created, Option.some.inj four, reached⟩

end Swap
end TunnelOperator.Agent
