import TunnelOperator.Agent.Device
import TunnelOperator.Controller.Listable

/-! What the two loops of createPeersConfiguration decide about each peer, for a state as
the operator writes it. -/
namespace TunnelOperator.Agent
open Net Netip

/-- What the operator writes: different canonical keys, different IPv4 addresses and a
server key that parses. -/
structure Servable (state : State) : Prop where
  keys : (state.peers.map (·.spec.publicKey)).Nodup
  canonical : ∀ peer ∈ state.peers, Controller.CanonicalKey peer.spec.publicKey
  addresses : (state.peers.map (·.status.address)).Nodup
  ipv4 : ∀ peer ∈ state.peers, ∃ bits, peer.status.address = (Addr.v4 bits).string
  serverKey : ∃ key, Wgtypes.parseKey state.serverPrivateKey = some key

/-- A device peer as the state has it: its key, and its address as only allowed IP. -/
def Desired (state : State) (p : DevicePeer) : Prop :=
  ∃ peer ∈ state.peers, peer.spec.publicKey = p.publicKey.string ∧
    ∃ bits, peer.status.address = (Addr.v4 bits).string ∧ p.allowedIPs = [Prefix.single (.v4 bits)]

section Entries
variable {state : State} {device : Device} {d p w : DevicePeer}

theorem allowedIPsEqual_host (bits : BitVec 32) (allowed : List IPNet) :
    allowedIPsEqual [Prefix.single (.v4 bits)] allowed = true ↔
      allowed = [Prefix.single (.v4 bits)] := by
  cases allowed with
  | nil => simp [allowedIPsEqual]
  | cons n rest =>
    cases rest with
    | cons _ _ => simp [allowedIPsEqual]
    | nil =>
      simp only [allowedIPsEqual, ipEqual, Bool.and_true, Bool.and_eq_true, decide_eq_true_eq,
        List.cons.injEq, and_true]
      constructor
      · rintro ⟨address, masks⟩
        obtain ⟨four, length⟩ := (mask_host_iff n bits).mp masks.symm
        obtain ⟨addr, ones, fits⟩ := n
        cases addr with
        | v6 value zone => contradiction
        | v4 value =>
          rw [Prefix.ext_iff']
          exact ⟨address.symm, length⟩
      · rintro rfl
        exact ⟨rfl, rfl⟩

theorem hostIPs_v4 {peer : WireguardPeer} (address : peer.status.address = (Addr.v4 bits).string) :
    hostIPs peer = .ok [Prefix.single (.v4 bits)] := by
  simp only [hostIPs, getIP, address, parseCIDR_host]

theorem lookup_insertAll (peers : List WireguardPeer) (peersState : PeersState)
    (distinct : (peers.map (·.spec.publicKey)).Nodup) :
    (peers.foldl (fun peersState peer => peersState.insert peer.spec.publicKey peer)
      peersState).lookup key =
      (peers.find? fun peer => peer.spec.publicKey = key).or (peersState.lookup key) := by
  induction peers generalizing peersState with
  | nil => rfl
  | cons peer rest ih =>
    obtain ⟨absent, distinct⟩ := List.nodup_cons.mp distinct
    rw [List.foldl_cons, ih _ distinct]
    by_cases here : peer.spec.publicKey = key
    · have later : rest.find? (fun other => other.spec.publicKey = key) = none := by
        rw [List.find?_eq_none]
        intro other member same
        exact absent (List.mem_map.mpr ⟨other, member, (of_decide_eq_true same).trans here.symm⟩)
      subst here
      simp [later]
    · rw [AList.lookup_insert_ne (Ne.symm here), List.find?_cons_of_neg (by simpa using here)]

theorem lookup_peersStateOf (servable : Servable state) {peer : WireguardPeer}
    (member : peer ∈ state.peers) :
    (peersStateOf state.peers).lookup peer.spec.publicKey = some peer := by
  rw [peersStateOf, lookup_insertAll _ _ servable.keys]
  cases found : state.peers.find? fun other => other.spec.publicKey = peer.spec.publicKey with
  | none =>
    have absent := List.find?_eq_none.mp found peer member
    simp at absent
  | some other =>
    have same : other.spec.publicKey = peer.spec.publicKey := by simpa using List.find?_some found
    obtain rfl := List.inj_on_of_nodup_map servable.keys
      (List.mem_of_find?_eq_some found) member same
    rfl

theorem lookup_peersStateOf_none (servable : Servable state)
    (absent : ∀ peer ∈ state.peers, peer.spec.publicKey ≠ key) :
    (peersStateOf state.peers).lookup key = none := by
  rw [peersStateOf, lookup_insertAll _ _ servable.keys,
    List.find?_eq_none.mpr (by simpa using absent)]
  rfl

/-- Every peer of the state is desired, with one allowed IP. -/
theorem exists_desired (servable : Servable state) {peer : WireguardPeer}
    (member : peer ∈ state.peers) :
    ∃ w, Desired state w ∧ peer.spec.publicKey = w.publicKey.string ∧
      hostIPs peer = .ok w.allowedIPs := by
  obtain ⟨key, canonical⟩ := servable.canonical peer member
  obtain ⟨bits, address⟩ := servable.ipv4 peer member
  exact ⟨⟨key, [Prefix.single (.v4 bits)]⟩,
    ⟨peer, member, canonical, bits, address, rfl⟩, canonical, hostIPs_v4 address⟩

theorem Desired.unique (servable : Servable state) (one : Desired state p) (two : Desired state w)
    (same : p.publicKey = w.publicKey) : p = w := by
  obtain ⟨first, member, keyed, bits, address, ips⟩ := one
  obtain ⟨second, member', keyed', bits', address', ips'⟩ := two
  obtain rfl := List.inj_on_of_nodup_map servable.keys member member'
    (keyed.trans ((congrArg Wgtypes.Key.string same).trans keyed'.symm))
  obtain rfl : bits = bits' := string_v4_injective (address.symm.trans address')
  obtain ⟨key, allowed⟩ := p
  obtain ⟨key', allowed'⟩ := w
  obtain rfl : key = key' := same
  obtain rfl : allowed = _ := ips
  obtain rfl : allowed' = _ := ips'
  rfl

/-- Different peers want different networks. -/
theorem Desired.disjoint (servable : Servable state) (one : Desired state p) (two : Desired state w)
    (apart : p.publicKey ≠ w.publicKey) : p.allowedIPs.Disjoint w.allowedIPs := by
  obtain ⟨first, member, keyed, bits, address, ips⟩ := one
  obtain ⟨second, member', keyed', bits', address', ips'⟩ := two
  rw [ips, ips', List.singleton_disjoint, List.mem_singleton]
  intro same
  obtain rfl : bits = bits' := Addr.v4.inj (congrArg Prefix.addr same)
  obtain rfl := List.inj_on_of_nodup_map servable.addresses member member'
    (address.trans address'.symm)
  exact apart (Wgtypes.Key.string_injective (keyed.symm.trans keyed'))

/-- What the first loop decides about a device peer. -/
theorem existingConfig_ok (servable : Servable state) (d : DevicePeer) :
    existingConfig (peersStateOf state.peers) d =
        .ok (some ⟨d.publicKey, true, false, false, d.allowedIPs⟩) ∧
        (∀ w, Desired state w → w.publicKey ≠ d.publicKey) ∨
      existingConfig (peersStateOf state.peers) d = .ok none ∧ Desired state d ∨
      ∃ w, Desired state w ∧ w.publicKey = d.publicKey ∧ w ≠ d ∧
        existingConfig (peersStateOf state.peers) d =
          .ok (some ⟨d.publicKey, false, true, true, w.allowedIPs⟩) := by
  by_cases present : ∃ peer ∈ state.peers, peer.spec.publicKey = d.publicKey.string
  · obtain ⟨peer, member, keyed⟩ := present
    obtain ⟨w, desired, canonical, hosts⟩ := exists_desired servable member
    have same : w.publicKey = d.publicKey :=
      Wgtypes.Key.string_injective (canonical.symm.trans keyed)
    obtain ⟨bits, address⟩ := servable.ipv4 peer member
    have single : w.allowedIPs = [Prefix.single (.v4 bits)] :=
      Except.ok.inj (hosts.symm.trans (hostIPs_v4 address))
    have decides : existingConfig (peersStateOf state.peers) d =
        if allowedIPsEqual w.allowedIPs d.allowedIPs then .ok none
        else .ok (some ⟨d.publicKey, false, true, true, w.allowedIPs⟩) := by
      have filled : peer.status.address ≠ "" := by
        rw [address]
        exact string_v4_ne_empty bits
      rw [existingConfig, ← keyed, lookup_peersStateOf servable member]
      simp only [desiredAllowed, if_pos filled, hosts, bind, Except.bind]
    by_cases equal : allowedIPsEqual w.allowedIPs d.allowedIPs = true
    · refine .inr (.inl ⟨by rw [decides, if_pos equal], ?_⟩)
      rw [single, allowedIPsEqual_host] at equal
      exact ⟨peer, member, keyed, bits, address, equal⟩
    · refine .inr (.inr ⟨w, desired, same, ?_, by rw [decides, if_neg equal]⟩)
      rintro rfl
      exact equal (by rw [single, allowedIPsEqual_host])
  · refine .inl ⟨?_, ?_⟩
    · have absent := lookup_peersStateOf_none servable fun peer member keyed => present ⟨peer, member, keyed⟩
      simp only [existingConfig, absent]
    · rintro w ⟨peer, member, keyed, -⟩ same
      exact present ⟨peer, member, same ▸ keyed⟩

/-- What the second loop decides about a peer of the state. -/
theorem newConfig_ok (servable : Servable state) {peer : WireguardPeer}
    (member : peer ∈ state.peers)
    (existing : List String) : ∃ w, Desired state w ∧ peer.spec.publicKey = w.publicKey.string ∧
      newConfig existing peer = if w.publicKey.string ∈ existing then .ok none
        else .ok (some ⟨w.publicKey, false, false, false, w.allowedIPs⟩) := by
  obtain ⟨w, desired, canonical, hosts⟩ := exists_desired servable member
  obtain ⟨bits, address⟩ := servable.ipv4 peer member
  refine ⟨w, desired, canonical, ?_⟩
  have parsed : parseKey peer.spec.publicKey = .ok w.publicKey := by
    rw [parseKey, canonical, Wgtypes.parseKey_string]
  rw [newConfig, if_neg (by rw [canonical]; exact w.publicKey.string_ne_empty),
    if_neg (by rw [address]; exact string_v4_ne_empty bits)]
  simp only [parsed, hosts, bind, Except.bind]

end Entries

section Loops

/-- The entries one loop adds. -/
def entriesOf (entry : α → Except ConfigurationError (Option PeerConfig)) (items : List α) :
    List PeerConfig :=
  items.filterMap fun item => (entry item).toOption.join

theorem collect_ok {entry : α → Except ConfigurationError (Option PeerConfig)} {items : List α}
    (succeeds : ∀ item ∈ items, ∃ p, entry item = .ok p) (configs : PeerConfigs) :
    collect entry configs items =
      .ok ((entriesOf entry items).foldl
        (fun configs p => configs.insert p.publicKey.string p) configs) := by
  induction items generalizing configs with
  | nil => rfl
  | cons item rest ih =>
    obtain ⟨p, decided⟩ := succeeds item List.mem_cons_self
    have later := ih (fun item member => succeeds item (List.mem_cons_of_mem _ member))
      (record configs p)
    simp only [collect, decided, bind, Except.bind, later]
    cases p with
    | none => simp [entriesOf, decided, Except.toOption, record]
    | some p => simp [entriesOf, decided, Except.toOption, record]

theorem decided_iff {decision : Except ConfigurationError (Option PeerConfig)} :
    decision.toOption.join = some p ↔ decision = .ok (some p) := by
  cases decision <;> simp [Except.toOption]

theorem mem_entriesOf {entry : α → Except ConfigurationError (Option PeerConfig)} {items : List α} :
    p ∈ entriesOf entry items ↔ ∃ item ∈ items, entry item = .ok (some p) := by
  simp only [entriesOf, List.mem_filterMap, decided_iff]

theorem entriesOf_distinct {entry : α → Except ConfigurationError (Option PeerConfig)}
    {items : List α}
    {name : α → String} (named : ∀ item ∈ items, ∀ p, entry item = .ok (some p) →
      p.publicKey.string = name item)
    (distinct : (items.map name).Nodup) :
    ((entriesOf entry items).map (·.publicKey.string)).Nodup := by
  rw [List.Nodup, List.pairwise_map, entriesOf, List.pairwise_filterMap]
  refine (List.pairwise_map.mp distinct).imp_of_mem ?_
  intro a b here there apart p first q second
  rw [named a here p (decided_iff.mp first), named b there q (decided_iff.mp second)]
  exact apart

theorem values_insertAll (ps : List PeerConfig) (configs : PeerConfigs)
    (distinct : (ps.map (·.publicKey.string)).Nodup)
    (fresh : ∀ p ∈ ps, p.publicKey.string ∉ configs) :
    ((ps.foldl (fun configs p => configs.insert p.publicKey.string p) configs).entries.map
      (·.2)).Perm (configs.entries.map (·.2) ++ ps) := by
  induction ps generalizing configs with
  | nil => simp
  | cons p rest ih =>
    obtain ⟨absent, distinct⟩ := List.nodup_cons.mp distinct
    have new := fresh p List.mem_cons_self
    refine (ih _ distinct fun later member => ?_).trans ?_
    · rw [AList.mem_insert, not_or]
      refine ⟨fun same => absent ?_, fresh later (List.mem_cons_of_mem _ member)⟩
      exact List.mem_map.mpr ⟨later, member, same⟩
    · rw [AList.entries_insert_of_notMem new]
      exact List.perm_middle.symm

end Loops

section Configuration
variable {state : State} {device : Device}

def deviceEntries (state : State) (device : Device) : List PeerConfig :=
  entriesOf (existingConfig (peersStateOf state.peers)) device.peers ++
    entriesOf (newConfig (device.peers.map (·.publicKey.string))) state.peers

/-- The entries by what they are for: a device peer the state lacks, one whose allowed
IPs are wrong, and a peer of the state the device lacks. -/
inductive EntryFor (state : State) (device : Device) : PeerConfig → Prop
  | remove (present : d ∈ device.peers)
      (undesired : ∀ w, Desired state w → w.publicKey ≠ d.publicKey) :
      EntryFor state device ⟨d.publicKey, true, false, false, d.allowedIPs⟩
  | update (present : d ∈ device.peers) (desired : Desired state w)
      (same : w.publicKey = d.publicKey)
      (differs : w ≠ d) : EntryFor state device ⟨d.publicKey, false, true, true, w.allowedIPs⟩
  | add (desired : Desired state w) (absent : w.publicKey ∉ device.owners) :
      EntryFor state device ⟨w.publicKey, false, false, false, w.allowedIPs⟩

theorem mem_peers {d : DevicePeer} :
    d ∈ device.peers ↔ d.publicKey ∈ device.owners ∧ device.held d.publicKey = d.allowedIPs := by
  constructor
  · rintro member
    obtain ⟨key, owner, rfl⟩ := List.mem_map.mp member
    exact ⟨owner, rfl⟩
  · rintro ⟨owner, holds⟩
    exact List.mem_map.mpr ⟨d.publicKey, owner, by rw [holds]⟩

theorem existing_iff {key : Wgtypes.Key} :
    key.string ∈ device.peers.map (·.publicKey.string) ↔ key ∈ device.owners := by
  simp only [Device.peers, List.map_map, List.mem_map, Function.comp_apply]
  constructor
  · rintro ⟨owner, member, same⟩
    exact Wgtypes.Key.string_injective same ▸ member
  · exact fun member => ⟨key, member, rfl⟩

theorem mem_deviceEntries (servable : Servable state) :
    p ∈ deviceEntries state device ↔ EntryFor state device p := by
  rw [deviceEntries, List.mem_append, mem_entriesOf, mem_entriesOf]
  constructor
  · rintro (⟨d, present, decided⟩ | ⟨peer, member, decided⟩)
    · rcases existingConfig_ok servable d with ⟨removes, undesired⟩ | ⟨keeps, -⟩
        | ⟨w, desired, same, differs, updates⟩
      · cases Except.ok.inj (decided.symm.trans removes)
        exact .remove present undesired
      · cases Except.ok.inj (decided.symm.trans keeps)
      · cases Except.ok.inj (decided.symm.trans updates)
        exact .update present desired same differs
    · obtain ⟨w, desired, -, decides⟩ := newConfig_ok servable member (device.peers.map (·.publicKey.string))
      rw [decides] at decided
      split at decided
      · cases Except.ok.inj decided
      · rename_i absent
        cases Except.ok.inj decided
        exact .add desired (existing_iff.not.mp absent)
  · intro entry
    cases entry with
    | @remove d present undesired =>
      refine .inl ⟨d, present, ?_⟩
      rcases existingConfig_ok servable d with ⟨removes, -⟩ | ⟨-, desired⟩ | ⟨w, desired, same, -⟩
      · exact removes
      · exact absurd rfl (undesired d desired)
      · exact absurd same (undesired w desired)
    | @update d w present desired same differs =>
      refine .inl ⟨d, present, ?_⟩
      rcases existingConfig_ok servable d with ⟨-, undesired⟩ | ⟨-, settled⟩
        | ⟨w', desired', same', -, updates⟩
      · exact absurd same (undesired w desired)
      · exact absurd (desired.unique servable settled same) differs
      · rwa [desired.unique servable desired' (same.trans same'.symm)]
    | @add w desired absent =>
      obtain ⟨peer, member, keyed, -⟩ := id desired
      refine .inr ⟨peer, member, ?_⟩
      obtain ⟨w', desired', keyed', decides⟩ :=
        newConfig_ok servable member (device.peers.map (·.publicKey.string))
      obtain rfl := desired.unique servable desired'
        (Wgtypes.Key.string_injective (keyed.symm.trans keyed'))
      rw [decides, if_neg (existing_iff.not.mpr absent)]

/-- An entry that is not a removal takes what its peer should have. -/
theorem EntryFor.takes (entry : EntryFor state device p) :
    p.change.takes = [] ∨ ∃ w, Desired state w ∧ w.publicKey = p.publicKey ∧
      p.change.takes = w.allowedIPs := by
  cases entry with
  | remove present undesired => exact .inl rfl
  | update present desired same differs => exact .inr ⟨_, desired, same, rfl⟩
  | add desired absent => exact .inr ⟨_, desired, rfl, rfl⟩

theorem EntryFor.spares (servable : Servable state) (entry : EntryFor state device p)
    (desired : Desired state d)
    (apart : p.publicKey ≠ d.publicKey) : p.change.takes.Disjoint d.allowedIPs := by
  rcases entry.takes with nothing | ⟨w, wanted, same, takes⟩
  · rw [nothing]
    exact List.disjoint_nil_left _
  · rw [takes]
    exact wanted.disjoint servable desired (by rwa [same])

theorem existing_distinct (device : Device) : (device.peers.map (·.publicKey.string)).Nodup := by
  rw [Device.peers, List.map_map]
  exact device.distinct.map fun _ _ same => Wgtypes.Key.string_injective same

/-- No two entries are about one peer. -/
theorem deviceEntries_distinct (servable : Servable state) (device : Device) :
    ((deviceEntries state device).map (·.publicKey.string)).Nodup := by
  have known : ∀ d ∈ device.peers, ∀ p, existingConfig (peersStateOf state.peers) d = .ok (some p) →
      p.publicKey.string = d.publicKey.string := by
    intro d _ p decided
    rcases existingConfig_ok servable d with ⟨decides, -⟩ | ⟨decides, -⟩ | ⟨w, -, -, -, decides⟩
    all_goals cases Except.ok.inj (decided.symm.trans decides)
    all_goals rfl
  have new : ∀ peer ∈ state.peers, ∀ p, newConfig (device.peers.map (·.publicKey.string)) peer =
      .ok (some p) →
      p.publicKey.string = peer.spec.publicKey ∧
        p.publicKey.string ∉ device.peers.map (·.publicKey.string) := by
    intro peer member p decided
    obtain ⟨w, -, keyed, decides⟩ :=
      newConfig_ok servable member (device.peers.map (·.publicKey.string))
    rw [decides] at decided
    split at decided
    · cases Except.ok.inj decided
    · rename_i absent
      cases Except.ok.inj decided
      exact ⟨keyed.symm, absent⟩
  rw [deviceEntries, List.map_append, List.nodup_append]
  refine ⟨entriesOf_distinct known (existing_distinct device),
    entriesOf_distinct (fun peer member p decided => (new peer member p decided).1) servable.keys,
      ?_⟩
  rintro text first _ second rfl
  obtain ⟨p, here, rfl⟩ := List.mem_map.mp first
  obtain ⟨q, there, same⟩ := List.mem_map.mp second
  obtain ⟨d, present, decided⟩ := mem_entriesOf.mp here
  obtain ⟨peer, member, decided'⟩ := mem_entriesOf.mp there
  refine (new peer member q decided').2 (List.mem_map.mpr ⟨d, present, ?_⟩)
  rw [same, known d present p decided]

theorem createPeersConfiguration_ok (servable : Servable state) (order : MapOrder PeerConfig)
    (device : Device) :
    ∃ peers, createPeersConfiguration order (.ok device) state = .ok peers ∧
      peers.Perm (deviceEntries state device) := by
  have known : ∀ d ∈ device.peers, ∃ p, existingConfig (peersStateOf state.peers) d = .ok p := by
    intro d _
    rcases existingConfig_ok servable d with ⟨decides, -⟩ | ⟨decides, -⟩ | ⟨w, -, -, -, decides⟩
    all_goals exact ⟨_, decides⟩
  have new : ∀ peer ∈ state.peers, ∃ p,
      newConfig (device.peers.map (·.publicKey.string)) peer = .ok p := by
    intro peer member
    obtain ⟨w, -, -, decides⟩ :=
      newConfig_ok servable member (device.peers.map (·.publicKey.string))
    rw [decides]
    split <;> exact ⟨_, rfl⟩
  simp only [createPeersConfiguration, collect_ok known, collect_ok new, bind, Except.bind]
  refine ⟨_, rfl, (order.perm _).trans ?_⟩
  rw [← List.foldl_append]
  exact values_insertAll _ _ (deviceEntries_distinct servable device) fun p _ =>
    AList.notMem_empty _

theorem createWireguardConfiguration_ok (servable : Servable state) (order : MapOrder PeerConfig)
    (device : Device)
    (listenPort : Int) : ∃ cfg, createWireguardConfiguration order
    (.ok device) state listenPort = .ok cfg ∧
      cfg.replacePeers = false ∧ cfg.peers.Perm (deviceEntries state device) := by
  obtain ⟨key, parses⟩ := servable.serverKey
  obtain ⟨peers, created, same⟩ := createPeersConfiguration_ok servable order device
  refine ⟨⟨key, listenPort, false, peers⟩, ?_, rfl, same⟩
  simp only [createWireguardConfiguration, parseKey, parses, created, bind, Except.bind]

end Configuration
end TunnelOperator.Agent
