import Mathlib.Logic.Relation
import TunnelOperator.Controller.Stages

/-! The cluster a pass runs against: the stored objects, what the apiserver answers to
each call, how a call may fail, and what users do between passes. Passes are atomic
here. An edit that lands while a pass runs is seen by the next one, and shows in this
one only as the outcome of a write. -/
namespace TunnelOperator.Controller
open Program Resources

/-- Peers are kept as a list without order, each name once. -/
structure Cluster where
  wireguards : NamespacedName → Option Wireguard
  secrets : NamespacedName → Option Secret
  clusterIPs : NamespacedName → String
  peers : List WireguardPeer
  named : ∀ {key wg}, wireguards key = some wg → wg.key = key
  distinct : (peers.map (·.key)).Nodup

namespace Cluster

/-- A store of Wireguards stays well named when an entry is replaced by one of its name. -/
theorem named_update {wireguards : NamespacedName → Option Wireguard} {at_ : NamespacedName}
    {new : Option Wireguard} (named : ∀ {key wg}, wireguards key = some wg → wg.key = key)
    (same : ∀ {wg}, new = some wg → wg.key = at_) {key : NamespacedName} {wg : Wireguard}
    (stored : Function.update wireguards at_ new key = some wg) : wg.key = key := by
  by_cases here : key = at_
  · subst here
    exact same (by simpa using stored)
  · exact named (by simpa [here] using stored)

/-- The same for an entry that is edited and keeps its name. -/
theorem named_map {wireguards : NamespacedName → Option Wireguard} {at_ : NamespacedName}
    {edit : Wireguard → Wireguard} (named : ∀ {key wg}, wireguards key = some wg → wg.key = key)
    (keeps : ∀ wg, (edit wg).key = wg.key) {key : NamespacedName} {wg : Wireguard}
    (stored : Function.update wireguards at_ ((wireguards at_).map edit) key = some wg) :
    wg.key = key := by
  refine named_update named ?_ stored
  intro wg edited
  obtain ⟨old, found, rfl⟩ := Option.map_eq_some_iff.mp edited
  rw [keeps, named found]

/-- The same for a store that is written out entry by entry. -/
theorem named_ite {others : Option Wireguard} {key name : NamespacedName} {server wg : Wireguard}
    (stored : (if key = name then some server else others) = some wg) (own : server.key = name)
    (named : others = some wg → wg.key = key) : wg.key = key := by
  split at stored
  · rename_i here
    obtain rfl := Option.some.inj stored
    exact own.trans here.symm
  · exact named stored

/-- The stored peer with that name takes the status; no other field is written. -/
def putStatus (peers : List WireguardPeer) (write : WireguardPeer) : List WireguardPeer :=
  peers.map fun peer => if peer.key = write.key then { peer with status := write.status } else peer

theorem putStatus_objects (peers : List WireguardPeer) (write : WireguardPeer) :
    (putStatus peers write).map (·.object) = peers.map (·.object) := by
  simp only [putStatus, List.map_map]
  apply List.map_congr_left
  intro peer _
  simp only [Function.comp_apply]
  split <;> rfl

theorem map_key_eq (peers : List WireguardPeer) :
    peers.map (·.key) = (peers.map (·.object)).map (·.key) := by
  rw [List.map_map]
  rfl

def setPeerStatus (c : Cluster) (write : WireguardPeer) : Cluster :=
  { c with
    peers := putStatus c.peers write
    distinct := by
      rw [map_key_eq, putStatus_objects, ← map_key_eq]
      exact c.distinct }

def setWireguardStatus (c : Cluster) (write : Wireguard) : Cluster :=
  { c with
    wireguards := Function.update c.wireguards write.key
      ((c.wireguards write.key).map fun wg => { wg with status := write.status })
    named := by
      intro key wg stored
      refine named_map c.named ?_ stored
      exact fun _ => rfl }

def setSecret (c : Cluster) (secret : Secret) : Cluster :=
  { c with secrets := Function.update c.secrets secret.key (some secret) }

end Cluster

/-- A call that succeeds: what it returns and what it leaves. Lists come in any order;
rollouts, pods and random keys are not the operator's to choose. -/
inductive Serves (c : Cluster) : (request : Call) → Reply request → Cluster → Prop where
  | getWireguard : c.wireguards key = some wg → Serves c (.getWireguard key) wg c
  | getSecret : c.secrets key = some secret → Serves c (.getSecret key) secret c
  | listPeers : items.Perm c.peers → Serves c .listPeers items c
  | updatePeerStatus : (∃ peer ∈ c.peers, peer.key = write.key) →
      Serves c (.updatePeerStatus write) () (c.setPeerStatus write)
  | updateWireguardStatus : c.wireguards write.key ≠ none →
      Serves c (.updateWireguardStatus write) () (c.setWireguardStatus write)
  | applyService (svc : Service) :
      Serves c (.applyService svc)
        { svc with clusterIP := c.clusterIPs ⟨svc.nameSpace, svc.name⟩ } c
  | applyDeployment (dep rolled : Deployment) : Serves c (.applyDeployment dep) rolled c
  | createSecret : c.secrets secret.key = none →
    Serves c (.createSecret secret) () (c.setSecret secret)
  | updateSecret : c.secrets secret.key ≠ none →
    Serves c (.updateSecret secret) () (c.setSecret secret)
  | generatePrivateKey (key : Wgtypes.Key) : Serves c .generatePrivateKey key c
  | listPods (pods : List Pod) : Serves c (.listPods nameSpace labels) pods c
  | updatePod (pod : Pod) : Serves c (.updatePod pod) () c

/-- The errors that follow from what is stored. -/
inductive Refuses (c : Cluster) : Call → ApiError → Prop where
  | getWireguard : c.wireguards key = none → e.reason = .notFound → Refuses c (.getWireguard key) e
  | getSecret : c.secrets key = none → e.reason = .notFound → Refuses c (.getSecret key) e
  | updatePeerStatus : (∀ peer ∈ c.peers, peer.key ≠ write.key) → e.reason = .notFound →
      Refuses c (.updatePeerStatus write) e
  | updateWireguardStatus : c.wireguards write.key = none → e.reason = .notFound →
      Refuses c (.updateWireguardStatus write) e
  | createSecret : c.secrets secret.key ≠ none → e.reason = .alreadyExists →
      Refuses c (.createSecret secret) e
  | updateSecret : c.secrets secret.key = none → e.reason = .notFound →
    Refuses c (.updateSecret secret) e

def Call.isRead : Call → Bool
  | .getWireguard _ | .getSecret _ | .listPeers => true
  | _ => false

/-- A call that fails for another cause: a conflict, a rejection, a lost connection.
A read does not invent a NotFound, and a write whose answer got lost may have taken
effect. -/
def Fault (faulty : Call → Prop) (c : Cluster) (request : Call) (e : ApiError) (c' : Cluster) :
    Prop :=
  faulty request ∧ (request.isRead = true → e.reason ≠ .notFound) ∧
    (c' = c ∨ (e.reason = .other ∧ ∃ reply, Serves c request reply c'))

/-- The apiserver with fresh reads, in which exactly the `faulty` calls may fail for a
cause outside the stored objects. -/
def clusterEnv (faulty : Call → Prop) : Environment Call Answer Cluster :=
  fun c request answer c' => match answer with
    | .ok reply => Serves c request reply c'
    | .error e => (Refuses c request e ∧ c' = c) ∨ Fault faulty c request e c'

/-! What users do. A status is written by the operator alone, so a created object has
none and an edit keeps it. -/

inductive Action where
  | createPeer (peer : WireguardPeer)
  | editPeer (key : NamespacedName) (spec : WireguardPeerSpec)
  | deletePeer (key : NamespacedName)
  | createWireguard (wg : Wireguard)
  | editWireguard (key : NamespacedName) (spec : WireguardSpec)
  | deleteWireguard (key : NamespacedName)

namespace Cluster

def editSpec (key : NamespacedName) (spec : WireguardPeerSpec) (peer : WireguardPeer) :
    WireguardPeer :=
  if peer.key = key then { peer with spec := spec, generation := peer.generation + 1 } else peer

@[simp] theorem editSpec_key (key : NamespacedName) (spec : WireguardPeerSpec)
    (peer : WireguardPeer) :
    (editSpec key spec peer).key = peer.key := by
  unfold editSpec
  split <;> rfl

/-- Creating what exists and editing or deleting what does not changes nothing. With a
Wireguard its Secret goes. -/
def act (c : Cluster) : Action → Cluster
  | .createPeer peer =>
    if fresh : ∀ stored ∈ c.peers, stored.key ≠ peer.key then
      { c with
        peers := { peer with status := .empty } :: c.peers
        distinct := by
          refine List.nodup_cons.mpr ⟨?_, c.distinct⟩
          intro member
          obtain ⟨stored, inside, same⟩ := List.mem_map.mp member
          exact fresh stored inside same }
    else c
  | .editPeer key spec =>
    { c with
      peers := c.peers.map (editSpec key spec)
      distinct := by
        rw [List.map_map]
        simpa [Function.comp_def] using c.distinct }
  | .deletePeer key =>
    { c with
      peers := c.peers.filter fun peer => peer.key ≠ key
      distinct := c.distinct.sublist (List.filter_sublist.map _) }
  | .createWireguard wg =>
    if c.wireguards wg.key = none then
      { c with
        wireguards := Function.update c.wireguards wg.key (some { wg with status := .empty })
        named := by
          refine named_update c.named ?_
          rintro _ ⟨⟩
          rfl }
    else c
  | .editWireguard key spec =>
    { c with
      wireguards := Function.update c.wireguards key
        ((c.wireguards key).map fun wg => { wg with spec := spec, generation := wg.generation + 1 })
      named := by
        intro key wg stored
        refine named_map c.named ?_ stored
        exact fun _ => rfl }
  | .deleteWireguard key =>
    { c with
      wireguards := Function.update c.wireguards key none
      secrets := Function.update c.secrets key none
      named := named_update c.named (by simp) }

end Cluster

/-- A pass for `req`, however it ends. -/
def Pass (publicHalf : Wgtypes.Key → Wgtypes.Key) (faulty : Call → Prop) (req : NamespacedName)
    (c c' : Cluster) : Prop :=
  ∃ events outcome, Trace (clusterEnv faulty) c (reconcile publicHalf req) events outcome c'

/-- Any pass of any server, or any action. -/
inductive AnyStep (publicHalf : Wgtypes.Key → Wgtypes.Key) (faulty : Call → Prop) :
    Cluster → Cluster → Prop where
  | pass : Pass publicHalf faulty req c c' → AnyStep publicHalf faulty c c'
  | act (action : Action) : AnyStep publicHalf faulty c (c.act action)

/-- The state a server's Secret carries, when it can be read. -/
def Cluster.state (c : Cluster) (server : NamespacedName) : Option State :=
  (c.secrets server).bind fun secret => secret.data.stateJSON.bind StateText.unmarshal

end TunnelOperator.Controller
