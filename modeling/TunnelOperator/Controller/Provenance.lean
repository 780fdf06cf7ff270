import TunnelOperator.Library.History
import TunnelOperator.Controller.AddressHolding
import TunnelOperator.Controller.MintedOnce

/-! Which server a peer's address comes from and which server its status describes, over
everything that has been stored so far. -/
namespace TunnelOperator.Controller
open Program Resources

/-- The stored objects after each call and each action so far, with the Wireguard whose
pass made the call. -/
abbrev Ledger := History (Option NamespacedName) Cluster

namespace Cluster

/-- The address of the stored peer of that name. -/
def address (c : Cluster) (name : NamespacedName) : Option String :=
  (c.peers.find? (·.key = name)).map (·.status.address)

/-- A server's Service, as the apiserver returns it. -/
def service (c : Cluster) (wg : Wireguard) : Service :=
  { serviceForWireguard wg with
    clusterIP := c.clusterIPs ⟨(serviceForWireguard wg).nameSpace, (serviceForWireguard wg).name⟩ }

/-- The endpoint, public key and localCIDRs of a server. -/
def identity (c : Cluster) (server : NamespacedName) : Option (String × String × List String) :=
  (c.wireguards server).bind fun wg => (c.secrets server).map fun secret =>
    ((identityOf (c.service wg) secret).endpoint, (identityOf (c.service wg) secret).publicKey,
      wg.spec.localCIDRs)

end Cluster

/-- The Wireguard whose pass gave the peer the address it has now. -/
def allocator : Ledger → NamespacedName → Option NamespacedName
  | .start _, _ => none
  | .next past party c, name =>
    if c.address name = past.now.address name then allocator past name else party

/-- The status carries an endpoint, public key and localCIDRs that the server has, or had
at some time. -/
def Carries (h : Ledger) (server : NamespacedName) (peer : WireguardPeer) : Prop :=
  h.Once fun c => c.identity server = some (publishedIdentity peer)

/-- The server whose identity the status carries allocated the address, or lists it. -/
def OneServer (h : Ledger) (peer : WireguardPeer) : Prop :=
  ∃ server, (allocator h peer.key = some server ∨
    ListsAt h.now server peer.key peer.status.address) ∧
    Carries h server peer

/-- The status names an address and an endpoint. -/
def Addressed (peer : WireguardPeer) : Prop := peer.status.address ≠ "" ∧ peer.status.endpoint ≠ ""

instance (peer : WireguardPeer) : Decidable (Addressed peer) := inferInstanceAs (Decidable (_ ∧ _))

/-- No stored status mixes two servers. -/
def Unmixed (h : Ledger) : Prop := ∀ peer ∈ h.now.peers, Addressed peer → OneServer h peer

/-- Whoever has an address got it from a pass of the Wireguard it names, and whoever has an
endpoint carries the identity of that Wireguard. -/
structure Native (h : Ledger) (peer : WireguardPeer) : Prop where
  address : peer.status.address ≠ "" → allocator h peer.key = some (gatewayKey peer)
  endpoint : peer.status.endpoint ≠ "" → Carries h (gatewayKey peer) peer

def Settled (h : Ledger) : Prop := ∀ peer ∈ h.now.peers, Native h peer

theorem Settled.unmixed (settled : Settled h) : Unmixed h := fun peer member addressed =>
  ⟨gatewayKey peer, .inl ((settled peer member).address addressed.1),
    (settled peer member).endpoint addressed.2⟩

/-- A user points a peer at another Wireguard only while its status has neither an address
nor an endpoint. -/
def Stays (c : Cluster) : Action → Prop
  | .editPeer name spec => ∀ peer ∈ c.peers, peer.key = name →
      gatewayKey { peer with spec := spec } = gatewayKey peer ∨
        peer.status.address = "" ∧ peer.status.endpoint = ""
  | _ => True

section Step
variable {c d : Cluster} {past h h' : Ledger} {party : Option NamespacedName}
  {peer old write : WireguardPeer}

theorem address_of_mem (member : peer ∈ c.peers) :
    c.address peer.key = some peer.status.address := by
  have found : c.peers.find? (fun p => p.key = peer.key) = some peer := by
    cases search : c.peers.find? (fun p => p.key = peer.key) with
    | none => exact absurd (List.find?_eq_none.mp search peer member) (by simp)
    | some other =>
      have named : other.key = peer.key := by simpa using List.find?_some search
      rw [List.inj_on_of_nodup_map c.distinct (List.mem_of_find?_eq_some search) member named]
  simp only [Cluster.address, found, Option.map_some]

theorem allocator_next (member : peer ∈ c.peers) : allocator (.next past party c) peer.key =
    if past.now.address peer.key = some peer.status.address then allocator past peer.key
      else party := by
  simp only [allocator, address_of_mem member, eq_comm]

/-- A status that is kept stays native to the Wireguard that the peer still names. -/
theorem Native.keeps (native : Native past old) (inPast : old ∈ past.now.peers)
    (member : peer ∈ c.peers) (named : old.key = peer.key) (status : old.status = peer.status)
    (stays : gatewayKey old = gatewayKey peer) : Native (.next past party c) peer where
  address held := by
    have kept : past.now.address peer.key = some peer.status.address := by
      rw [← named, ← status]
      exact address_of_mem inPast
    rw [allocator_next member, if_pos kept, ← named, ← stays]
    exact native.address (status ▸ held)
  endpoint told := by
    have carries := native.endpoint (status ▸ told)
    have same : publishedIdentity old = publishedIdentity peer := by
      simp only [publishedIdentity, status]
    rw [Carries, same, stays] at carries
    exact .inl carries

theorem native_blank (address : peer.status.address = "") (endpoint : peer.status.endpoint = "") :
    Native h peer :=
  ⟨fun held => absurd address held, fun told => absurd endpoint told⟩

theorem Settled.act (settled : Settled h) (action : Action) (stays : Stays h.now action) :
    Settled (.next h none (h.now.act action)) := by
  intro peer member
  have member : peer ∈ (h.now.act action).peers := member
  rcases act_peers member with before | created | ⟨name, spec, old, rfl, before, named, rfl⟩
  · exact (settled peer before).keeps before member rfl rfl rfl
  · exact native_blank (by rw [created]; rfl) (by rw [created]; rfl)
  · rcases stays old before named with same | ⟨address, endpoint⟩
    · exact (settled old before).keeps before member rfl rfl same.symm
    · exact native_blank address endpoint

/-- The stored peer of that name, if there is one, names `gw`. -/
def Ours (gw : NamespacedName) (c : Cluster) (name : NamespacedName) : Prop :=
  ∀ stored ∈ c.peers, stored.key = name → gatewayKey stored = gw

theorem Ours.specs (ours : Ours gw c name) (specs : SameSpecs c d) : Ours gw d name := by
  intro stored member named
  have object : stored.object ∈ c.peers.map (·.object) := specs.peers ▸ List.mem_map_of_mem member
  obtain ⟨origin, inside, same⟩ := List.mem_map.mp object
  rw [← gatewayKey_of_object same]
  exact ours origin inside ((key_of_object same).trans named)

theorem ours_of_listed (listed : ∃ stored ∈ c.peers, stored.object = peer.object)
    (names : gatewayKey peer = gw) : Ours gw c peer.key := by
  obtain ⟨origin, inside, same⟩ := listed
  intro stored member named
  have equal : stored = origin := List.inj_on_of_nodup_map c.distinct member inside
    (named.trans (key_of_object same).symm)
  rw [equal, gatewayKey_of_object same, names]

/-- A status write of the passes of `gw`: it is to one of its own peers, and the identity it
carries, if any, is its own. -/
structure Proper (gw : NamespacedName) (h : Ledger) (write : WireguardPeer) : Prop where
  ours : Ours gw h.now write.key
  endpoint : write.status.endpoint ≠ "" → Carries h gw write

theorem Settled.statusWrite (settled : Settled h) (proper : Proper gw h write) :
    Settled (.next h (some gw) (h.now.setPeerStatus write)) := by
  intro peer member
  have member : peer ∈ (h.now.setPeerStatus write).peers := member
  obtain ⟨stored, inPast, changed⟩ := List.mem_map.mp member
  by_cases named : stored.key = write.key
  · rw [if_pos named] at changed
    have names : gatewayKey stored = gw := proper.ours stored inPast named
    subst changed
    constructor
    · intro held
      rw [allocator_next member]
      split
      · rename_i kept
        have holds := address_of_mem inPast
        have same : stored.status.address = write.status.address :=
          Option.some.inj (holds.symm.trans kept)
        exact (settled stored inPast).address (same ▸ held)
      · exact congrArg some names.symm
    · intro told
      have carries := proper.endpoint told
      rw [← names] at carries
      exact .inl carries
  · rw [if_neg named] at changed
    subst changed
    exact (settled stored inPast).keeps inPast member rfl rfl rfl

/-- A call of a pass of `gw`. -/
theorem Settled.call {faulty : Call → Prop} (settled : Settled h)
    (answered : History.recording (clusterEnv faulty) (some gw) h request answer h')
    (proper : ∀ write, request = .updatePeerStatus write → Proper gw h write) : Settled h' := by
  obtain ⟨c, answers, rfl⟩ := answered
  have same : c.peers = h.now.peers → Settled (.next h (some gw) c) := by
    intro same peer member
    have member : peer ∈ c.peers := member
    have before : peer ∈ h.now.peers := same ▸ member
    exact (settled peer before).keeps before member rfl rfl rfl
  cases effect_of_env answers with
  | none | wireguardStatus | created | updated => exact same rfl
  | peerStatus => exact settled.statusWrite (proper _ rfl)

end Step
end TunnelOperator.Controller
