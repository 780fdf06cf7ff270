import TunnelOperator.Controller.Apiserver
import TunnelOperator.Controller.IdentityStages

/-! Whether a peer's status ever mixes two servers. The address is written by
allocatePeers and the endpoint, key and localCIDRs by syncPeerIdentity, after the Secret;
in between, and for good if the pass ends there, the new address stands beside the old
identity. -/
namespace TunnelOperator.Controller
open Program Resources

/-- Passes of any servers, each cut or failing anywhere, and actions of users that are
permitted where they happen, from a cluster in which no status names an address or an
endpoint. -/
inductive LedgerRun (publicHalf : Wgtypes.Key → Wgtypes.Key) (faulty : Call → Prop)
    (permitted : Cluster → Action → Prop) : Ledger → Prop where
  | start (blank : ∀ peer ∈ c.peers, peer.status.address = "" ∧ peer.status.endpoint = "") :
      LedgerRun publicHalf faulty permitted (.start c)
  | pass (before : LedgerRun publicHalf faulty permitted h)
      (run : Trace (History.recording (clusterEnv faulty) (some gw)) h (reconcile publicHalf gw)
        events outcome h') : LedgerRun publicHalf faulty permitted h'
  | act (before : LedgerRun publicHalf faulty permitted h) (action : Action)
      (may : permitted h.now action) :
      LedgerRun publicHalf faulty permitted (.next h none (h.now.act action))

/-- In no run does a stored status ever mix two servers. -/
def StatusesUnmixed : Prop :=
  ∀ (publicHalf : Wgtypes.Key → Wgtypes.Key) (faulty : Call → Prop) (h : Ledger),
    LedgerRun publicHalf faulty (fun _ _ => True) h → h.Throughout Unmixed

section Run
variable {publicHalf : Wgtypes.Key → Wgtypes.Key} {faulty : Call → Prop} {h : Ledger}

theorem settled_run (run : LedgerRun publicHalf faulty Stays h) : h.Throughout Settled := by
  induction run with
  | start blank => exact fun peer member => native_blank (blank peer member).1 (blank peer member).2
  | pass _ run ih => exact settled_pass run ih
  | act _ action stays ih => exact ⟨ih, ih.last.act action stays⟩

/-- No status ever mixes two servers in a run in which peers are pointed at another
Wireguard only while their status is blank. -/
theorem statuses_unmixed (run : LedgerRun publicHalf faulty Stays h) : h.Throughout Unmixed :=
  (settled_run run).mono fun _ => Settled.unmixed

end Run

/-! A roamer that is served by one server and then moves to another with a range of its
own. Every call of every pass succeeds. -/

section Roamer

def roamer : WireguardPeer := samplePeer "roamer" 5 firstKey

def distant : NamespacedName := ⟨"vpn", "far"⟩

def distantServer : Wireguard :=
  { sampleServer with name := "far", spec := { sampleServer.spec with peerCIDR := "10.9.0.0/24" } }

def gatewayService : NamespacedName := ⟨"vpn", "gw-svc"⟩

def roamingIPs (key : NamespacedName) : String := if key = gatewayService then "10.96.0.10"
    else "10.96.0.11"

def roamingCluster : Cluster where
  wireguards := fun key =>
    if key = gateway then some sampleServer else if key = distant then some distantServer else none
  secrets := fun _ => none
  clusterIPs := roamingIPs
  peers := [roamer]
  named := fun stored => Cluster.named_ite stored rfl fun other =>
    Cluster.named_ite other rfl nofun
  distinct := List.nodup_singleton _

@[irreducible] def ledgerPass (req : NamespacedName) (h : Ledger) : Ledger :=
  ((reconcile (fun _ => drawnPublicKey) req).play
    (History.recorded (apiserver nothingLost) (some req)) h).2.2

theorem trace_ledgerPass (req : NamespacedName) (h : Ledger) : ∃ events outcome,
    Trace (History.recording (clusterEnv fun _ => False) (some req)) h
      (reconcile (fun _ => drawnPublicKey) req) events outcome (ledgerPass req h) := by
  unfold ledgerPass
  exact ⟨_, _, play_trace _
    (History.recorded_answers (apiserver_answers nothingLost_may) (some req)) _ h⟩

/-- The first pass mints the Secret, the second one publishes the identity. -/
def settledLedger : Ledger := ledgerPass gateway (ledgerPass gateway (.start roamingCluster))

def roam : Action := .editPeer roamer.key ⟨firstKey, "far", "vpn"⟩

/-- The pass of the new server mints its Secret and ends there. -/
def roamedLedger : Ledger :=
  ledgerPass distant (.next settledLedger none (settledLedger.now.act roam))

theorem roamedLedger_run :
    LedgerRun (fun _ => drawnPublicKey) (fun _ => False) (fun _ _ => True) roamedLedger := by
  obtain ⟨_, _, first⟩ := trace_ledgerPass gateway (.start roamingCluster)
  obtain ⟨_, _, second⟩ := trace_ledgerPass gateway (ledgerPass gateway (.start roamingCluster))
  obtain ⟨_, _, third⟩ :=
    trace_ledgerPass distant (.next settledLedger none (settledLedger.now.act roam))
  exact (((LedgerRun.start (by decide)).pass first |>.pass second).act roam trivial).pass third

theorem roamingIPs_pass (req : NamespacedName) {h : Ledger}
    (before : h.Throughout fun k => k.now.clusterIPs = roamingIPs) :
    (ledgerPass req h).Throughout fun k => k.now.clusterIPs = roamingIPs := by
  obtain ⟨_, _, run⟩ := trace_ledgerPass req h
  exact History.throughout_run run
    (fun answered same => (effect_of_env answered).sameSpecs.clusterIPs.trans same) before

theorem settledLedger_ips : settledLedger.Throughout fun k => k.now.clusterIPs = roamingIPs :=
  roamingIPs_pass gateway (roamingIPs_pass gateway rfl)

theorem roamedLedger_ips : roamedLedger.Throughout fun k => k.now.clusterIPs = roamingIPs := by
  have kept : ∀ c : Cluster, (c.act roam).clusterIPs = c.clusterIPs := fun _ => rfl
  exact roamingIPs_pass distant ⟨settledLedger_ips, (kept _).trans settledLedger_ips.last⟩

/-- Only one server has that endpoint. -/
theorem carries_gateway {h : Ledger} (ips : h.Throughout fun k => k.now.clusterIPs = roamingIPs)
    (carries : Carries h server peer) (endpoint : peer.status.endpoint = "10.96.0.10:51820") :
    server = gateway := by
  obtain ⟨c, identity, same⟩ := carries.meets (fun c => c.clusterIPs = roamingIPs) ips
  obtain ⟨wg, stored, identity⟩ := Option.bind_eq_some_iff.mp identity
  obtain ⟨secret, -, identity⟩ := Option.map_eq_some_iff.mp identity
  have published : joinHostPort (roamingIPs ⟨wg.nameSpace, wg.name ++ "-svc"⟩)
      (Nat.repr wireguardPort) =
      "10.96.0.10:51820" := by
    rw [← endpoint, ← same]
    exact congrArg Prod.fst identity
  rw [← c.named stored]
  by_cases ours : (⟨wg.nameSpace, wg.name ++ "-svc"⟩ : NamespacedName) = gatewayService
  · obtain ⟨inVpn, named⟩ := NamespacedName.mk.inj ours
    have name : wg.name = "gw" := by
      apply (String.append_left_inj "-svc").mp
      exact named
    rw [Wireguard.key, inVpn, name]
    rfl
  · rw [roamingIPs, if_neg ours] at published
    exact absurd published (by decide)

/-- The roamer ends up with an address of its new server and the endpoint of the old one. -/
theorem statusesUnmixed_fails : ¬StatusesUnmixed := by
  intro unmixed
  have facts : (∃ peer ∈ roamedLedger.now.peers, peer.key = roamer.key ∧
      peer.status.address = "10.9.0.2" ∧
      peer.status.endpoint = "10.96.0.10:51820") ∧
        allocator roamedLedger roamer.key = some distant ∧
      ¬ListsAt roamedLedger.now gateway roamer.key "10.9.0.2" := by decide +kernel
  obtain ⟨⟨peer, member, named, address, endpoint⟩, allocated, unlisted⟩ := facts
  have addressed : Addressed peer := by
    rw [Addressed, address, endpoint]
    decide
  obtain ⟨server, origin, carries⟩ := (unmixed _ _ _ roamedLedger_run).last peer member addressed
  obtain rfl := carries_gateway roamedLedger_ips carries endpoint
  rw [named, address, allocated] at origin
  rcases origin with same | listed
  · exact absurd same (by decide)
  · exact unlisted listed

/-- A roamer that moves before it is served. -/
def movedEarly : Ledger := .next (.start roamingCluster) none (roamingCluster.act roam)

def movedLedger : Ledger := ledgerPass distant (ledgerPass distant movedEarly)

theorem moved_status_unmixed :
    (∃ peer ∈ movedLedger.now.peers, Addressed peer) ∧ movedLedger.Throughout Unmixed := by
  obtain ⟨_, _, first⟩ := trace_ledgerPass distant movedEarly
  obtain ⟨_, _, second⟩ := trace_ledgerPass distant (ledgerPass distant movedEarly)
  have stays : Stays roamingCluster roam := by
    intro peer member _
    obtain rfl := List.mem_singleton.mp member
    exact .inr ⟨rfl, rfl⟩
  have moved : LedgerRun (fun _ => drawnPublicKey) (fun _ => False) Stays movedEarly :=
    (LedgerRun.start (by decide)).act roam stays
  exact ⟨by decide +kernel, statuses_unmixed ((moved.pass first).pass second)⟩

end Roamer
end TunnelOperator.Controller
