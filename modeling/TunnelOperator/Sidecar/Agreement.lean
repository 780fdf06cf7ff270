import TunnelOperator.Controller.Listable
import TunnelOperator.Controller.Apiserver
import TunnelOperator.Sidecar.Routing
import TunnelOperator.Sidecar.Tunnel

/-! Operator and client agree: every status the operator publishes for an admitted peer
gives the client a tunnel, and the client's routes keep the tunnel's own packets off wg0. -/
namespace TunnelOperator.Sidecar
open Netip Controller

/-- What the client relies on in a tunnel to the server `wg`. -/
structure Usable (wg : Wireguard) (tunnel : Tunnel) : Prop where
  address : ∃ value range, tunnel.address = Prefix.single (.v4 value) ∧
    Ipam.Reads (effectivePeerCIDR4 wg) range ∧ range.net.contains (.v4 value) = true ∧
    ∀ p ∈ tunnel.localCIDRs, p.contains (.v4 value) = false
  nonempty : tunnel.localCIDRs ≠ []
  ipv4 : ∀ p ∈ tunnel.localCIDRs, p.addr.is4 = true
  masked : ∀ p ∈ tunnel.localCIDRs, p.masked = p
  proper : ∀ p ∈ tunnel.localCIDRs, p.bits ≠ 0
  endpoint : ∃ value, tunnel.endpoint.addr = .v4 value ∧ ∃ p ∈ tunnel.localCIDRs,
    p.contains (.v4 value) = true

section Published
variable {wg : Wireguard} {range : Ipam.PeerCIDR}

/-- A localCIDRs entry the operator accepts: canonical, IPv4, not the default and apart
from the peers' range. -/
structure AcceptedCIDR (range : Ipam.PeerCIDR) (p : Prefix) : Prop where
  ipv4 : ∃ base, p.addr = .v4 base
  masked : p.masked = p
  proper : p.bits ≠ 0
  apart : range.net.overlaps p = false

theorem accepted_localCIDRs (checked : CheckedSpec wg)
    (reads : Ipam.Reads (effectivePeerCIDR4 wg) range)
    (member : c ∈ wg.spec.localCIDRs) : ∃ p, parsePrefix c = .ok p ∧ AcceptedCIDR range p := by
  obtain ⟨i, here⟩ := List.mem_iff_getElem?.mp member
  have canonical := firstProblem_ok.mp checked.localCIDRs i c here
  have apart := firstProblem_ok.mp checked.apart i c here
  simp only [localCIDRProblem] at canonical
  cases parsed : parsePrefix c with
  | error message => simp [parsed] at canonical
  | ok p =>
    simp only [parsed] at canonical
    simp only [prefixesOverlap,
      show parsePrefix (effectivePeerCIDR4 wg) = .ok range.net from reads, parsed,
      ite_eq_right_iff, reduceCtorEq, imp_false, Bool.not_eq_true] at apart
    split at canonical
    · contradiction
    · rename_i four
      have family : ∃ base, p.addr = .v4 base := by
        cases address : p.addr with
        | v4 base => exact ⟨base, rfl⟩
        | v6 value zone => simp [address, Addr.is4] at four
      have masked : p.masked = p := by
        by_contra differs
        simp [Ne.symm differs] at canonical
      obtain ⟨base, isV4⟩ := family
      refine ⟨p, rfl, ⟨base, isV4⟩, masked, fun zero => ?_, apart⟩
      have overlaps : range.net.overlaps p = true := Prefix.overlaps_zero rfl isV4 zero
      rw [overlaps] at apart
      contradiction

/-- The ClusterIP the operator accepts is an IPv4 address of some entry. -/
theorem accepted_clusterIP (checked : CheckedSpec wg)
    (reads : Ipam.Reads (effectivePeerCIDR4 wg) range)
    (inside : clusterIPOutside service clusterIP wg.spec.localCIDRs = .ok ()) :
    ∃ value, clusterIP = (Addr.v4 value).string ∧
      ∃ c ∈ wg.spec.localCIDRs, ∃ p, parsePrefix c = .ok p ∧ p.contains (.v4 value) = true := by
  unfold clusterIPOutside at inside
  cases parsed : parseAddr clusterIP with
  | error message => simp [parsed] at inside
  | ok ip =>
    simp only [parsed] at inside
    split at inside
    · rename_i found
      obtain ⟨c, member, contains⟩ := List.any_eq_true.mp found
      obtain ⟨p, reading, accepted⟩ := accepted_localCIDRs checked reads member
      simp only [prefixContains, reading] at contains
      obtain ⟨base, isV4⟩ := accepted.ipv4
      obtain ⟨value, rfl, -⟩ := (Prefix.contains_v4 isV4).mp contains
      exact ⟨value, parseAddr_v4_iff.mp parsed, c, member, p, reading, contains⟩
    · contradiction

/-- Accepted entries parse on the client's side, to the same prefixes. -/
theorem parseLocalCIDRs_accepted (peer : WireguardPeer) {cs : List String}
    (accepted : ∀ c ∈ cs, ∃ p, parsePrefix c = .ok p ∧ AcceptedCIDR range p) :
    ∃ ps, cs.mapM (parseLocalCIDR peer) = .ok ps ∧ ∀ p, p ∈ ps ↔
      ∃ c ∈ cs, parsePrefix c = .ok p := by
  induction cs with
  | nil => exact ⟨[], rfl, by simp⟩
  | cons c rest ih =>
    obtain ⟨p, parsed, good⟩ := accepted c List.mem_cons_self
    obtain ⟨ps, mapped, members⟩ := ih fun c member => accepted c (List.mem_cons_of_mem _ member)
    have first : parseLocalCIDR peer c = .ok p := by
      simp only [parseLocalCIDR, parsed, if_neg good.proper, good.masked]
    refine ⟨p :: ps, ?_, fun q => ?_⟩
    · simp only [List.mapM_cons, first, mapped, bind, Except.bind, pure, Except.pure]
    · rw [List.mem_cons, members]
      simp [parsed, eq_comm]

theorem joinHostPort_v4 (value : BitVec 32) (port : String) :
    joinHostPort (Addr.v4 value).string port = (Addr.v4 value).string ++ ":" ++ port := by
  have plain : ':' ∉ (Addr.v4 value).string.toList := by
    rw [show (Addr.v4 value).string.toList = Addr.text4 value by simp [Addr.string, Addr.text]]
    exact text4_plain value (by decide)
  simp [joinHostPort, plain]

/-- The status the operator publishes for an admitted peer gives the client its tunnel. -/
theorem desiredTunnel_published (checked : CheckedSpec wg)
    (reads : Ipam.Reads (effectivePeerCIDR4 wg) range)
    {svc : Resources.Service} {secret : Secret} {key : Wgtypes.Key} {peer : WireguardPeer}
    (inside : clusterIPOutside svc.name svc.clusterIP wg.spec.localCIDRs = .ok ())
    (minted : secret.data.publicKey = some key.string) (holds : range.Holds peer.status.address) :
    ∃ tunnel, desiredTunnel (withIdentity wg (identityOf svc secret) peer) = .ok tunnel ∧
      tunnel.serverKey = key ∧ Usable wg tunnel := by
  obtain ⟨value, address, allocatable⟩ := holds
  obtain ⟨host, clusterIP, c, member, p, reading, contains⟩ :=
    accepted_clusterIP checked reads inside
  have accepted := fun c member => accepted_localCIDRs (c := c) checked reads member
  obtain ⟨ps, parsed, members⟩ :=
    parseLocalCIDRs_accepted (withIdentity wg (identityOf svc secret) peer) accepted
  have endpoint : parseAddrPort (joinHostPort svc.clusterIP (Nat.repr Resources.wireguardPort)) =
      .ok ⟨.v4 host, Resources.wireguardPort⟩ := by
    rw [clusterIP, joinHostPort_v4]
    exact parseAddrPort_v4 host (by decide) (by decide) (by decide)
  have filled : joinHostPort svc.clusterIP (Nat.repr Resources.wireguardPort) ≠ "" := by
    intro empty
    rw [empty] at endpoint
    have rejected : parseAddrPort "" = .error "not an ip:port" := by decide
    rw [rejected] at endpoint
    contradiction
  refine ⟨⟨Prefix.single (.v4 value), key, ⟨.v4 host, Resources.wireguardPort⟩, ps⟩, ?_, rfl, ?_⟩
  · have cidrs : parseLocalCIDRs (withIdentity wg (identityOf svc secret) peer) = .ok ps := parsed
    have given : (withIdentity wg (identityOf svc secret) peer).status.address =
      (Addr.v4 value).string := address
    have published : (withIdentity wg (identityOf svc secret) peer).status.endpoint =
      joinHostPort svc.clusterIP (Nat.repr Resources.wireguardPort) := rfl
    have keyed : (withIdentity wg (identityOf svc secret) peer).status.serverPublicKey =
        key.string := by
      simp [withIdentity, identityOf, minted]
    have routed : (withIdentity wg (identityOf svc secret) peer).status.localCIDRs ≠ [] :=
      List.ne_nil_of_mem member
    simp only [desiredTunnel, given, published, keyed, cidrs, endpoint, parseAddr_string,
      Wgtypes.parseKey_string,
      if_neg (string_v4_ne_empty value), if_neg filled, if_neg key.string_ne_empty, if_neg routed,
        bind, Except.bind]
  · have found : ∀ q ∈ ps, AcceptedCIDR range q := by
      intro q here
      obtain ⟨c, member, reading⟩ := (members q).mp here
      obtain ⟨q', reading', accepted⟩ := accepted c member
      rwa [Except.ok.inj (reading.symm.trans reading')]
    have entry : p ∈ ps := (members p).mpr ⟨c, member, reading⟩
    refine ⟨⟨value, range, rfl, reads, allocatable.1, fun q here => ?_⟩, List.ne_nil_of_mem entry,
      fun q here => ?_,
      fun q here => (found q here).masked, fun q here => (found q here).proper, host, rfl, p,
        entry, contains⟩
    · obtain ⟨base, isV4⟩ := (found q here).ipv4
      by_contra covered
      have overlaps := Prefix.overlaps_of_contains rfl isV4 allocatable.1 (by simpa using covered)
      rw [(found q here).apart] at overlaps
      contradiction
    · obtain ⟨base, isV4⟩ := (found q here).ipv4
      rw [isV4]
      rfl

end Published

section Routed
open Program
variable {wg : Wireguard} {tunnel : Tunnel} {t t' : MainTable} {wgIndex : Nat}

/-- The table the CNI made: no route of the client's, no host bits in a destination, and
no route for the endpoint longer than every entry that covers it. -/
structure Plain (tunnel : Tunnel) (t : MainTable) : Prop where
  unmarked : ∀ r ∈ t.entries, r.protocol ≠ routeProtocol
  canonical : ∀ r ∈ t.entries, r.dst.masked = r.dst
  unspecific : ∀ r ∈ t.entries, r.dst.contains tunnel.endpoint.addr = true →
    ∃ p ∈ tunnel.localCIDRs, p.contains tunnel.endpoint.addr = true ∧ r.dst.bits ≤ p.bits

/-- Once the client's routes are in such a table, the endpoint is not reached through wg0. -/
theorem endpoint_off_wg (usable : Usable wg tunnel) (plain : Plain tunnel t)
    (run : Trace (Kernel AnyOrder) t (ensureRoutes wgIndex tunnel.localCIDRs) events
      (.done ()) t') :
    ∃ r, MainTable.lookup t' tunnel.endpoint.addr = some r ∧ r.linkIndex ≠ wgIndex := by
  rcases ensureRoutes_stops run with ⟨-, stopped⟩ | ⟨dumped, plan, k, -, order, planned, rfl, whole⟩
  · exact absurd rfl stopped
  rw [List.take_of_length_le (whole rfl)]
  have after := fun r => mem_completed (r := r) order planned usable.proper
  -- The gateway is that of a CNI default, so its link is not wg0.
  have offWg : plan.gwLink ≠ wgIndex := by
    obtain ⟨source, found, rfl⟩ := planRoutes_ok.mp planned
    obtain ⟨member, chosen | ⟨own, -⟩⟩ := gatewayRoute_some found
    · simp only [cniDefault, Bool.and_eq_true, decide_eq_true_eq] at chosen
      exact chosen.1.2
    · simp only [ownGateway, Bool.and_eq_true, decide_eq_true_eq] at own
      exact absurd own.1 (plain.unmarked source (order.mem_iff.mp member))
  have installed : ∀ p ∈ tunnel.localCIDRs,
      toRoute (localRoute plan p) ∈ (runAll t (plan.operations wgIndex)).entries := by
    intro p member
    obtain ⟨source, -, rfl⟩ := planRoutes_ok.mp planned
    exact (after _).mpr (.inr (mem_installed.mpr (.inl ⟨p, member, rfl⟩)))
  obtain ⟨value, address, entry, listed, covers⟩ := usable.endpoint
  rw [← address] at covers
  cases chosen : MainTable.lookup (runAll t (plan.operations wgIndex)) tunnel.endpoint.addr with
  | none =>
    have uncovered := bestMatch_none.mp chosen _ (installed entry listed)
    exact absurd (covers.symm.trans uncovered) (by decide)
  | some r =>
    refine ⟨r, rfl, ?_⟩
    obtain ⟨⟨member, covered⟩, best⟩ := bestMatch_some chosen
    rcases (after r).mp member with ⟨old, apart, -⟩ | new
    · -- A route of the CNI is no longer than an entry, and loses its slot to it.
      exfalso
      obtain ⟨p, here, around, shorter⟩ := plain.unspecific r old covered
      rcases best _ (installed p here) around with longer | ⟨same, metric⟩
      · exact absurd longer (Nat.not_lt.mpr shorter)
      · rw [address] at covered around
        have dst : p = r.dst := Prefix.eq_of_contains same (usable.masked p here)
          (plain.canonical r old) around covered
        refine apart (toRoute (localRoute plan p)) ?_ (Prod.ext dst.symm (Nat.le_zero.mp metric))
        obtain ⟨source, -, rfl⟩ := planRoutes_ok.mp planned
        exact mem_installed.mpr (.inl ⟨p, here, rfl⟩)
    · rcases mem_installed.mp new with ⟨p, -, rfl⟩ | rfl
      · exact offWg
      · -- The default route is shorter than the entry around the endpoint.
        exfalso
        rcases best _ (installed entry listed) covers with longer | ⟨same, -⟩
        · exact absurd longer (Nat.not_lt_zero _)
        · exact usable.proper entry listed same

/-- Whatever status syncPeerIdentity writes for a peer admitted to a server whose spec and
ClusterIP pass the operator's checks, the client reads a usable tunnel from it, and with
the client's routes in place the tunnel's own packets do not enter the tunnel. -/
theorem published_tunnel_usable {S : Type} (env : Environment Call Answer S) (wg : Wireguard)
    (svc : Resources.Service) (secret : Secret) (key : Wgtypes.Key) (published : WireguardPeer)
    {s₁ s₂ s₃ s₄ s₅ s₆ : S}
    (lists : ∀ s items t, env s .listPeers (.ok items) t → (items.map (·.key)).Nodup)
    (checking : Trace env s₁ (specProblem wg) checks (.done none) s₂)
    (inside : clusterIPOutside svc.name svc.clusterIP wg.spec.localCIDRs = .ok ())
    (reconciling : Trace env s₃ (reconcilePeers req wg) calls (.done admitted) s₄)
    (minted : secret.data.publicKey = some key.string)
    (syncing : Trace env s₅ (syncPeerIdentity wg (identityOf svc secret) admitted)
      writes outcome s₆)
    (written : ∃ event ∈ writes, event.1 = .updatePeerStatus published) :
    ∃ tunnel, desiredTunnel published = .ok tunnel ∧ tunnel.serverKey = key ∧ Usable wg tunnel ∧
      ∀ wgIndex t events t', Plain tunnel t →
        Trace (Kernel AnyOrder) t (ensureRoutes wgIndex tunnel.localCIDRs) events (.done ()) t' →
        ∃ r, MainTable.lookup t' tunnel.endpoint.addr = some r ∧ r.linkIndex ≠ wgIndex := by
  have answers : ∀ {s request answer t}, env s request answer t → Distinct request answer := by
    intro s request answer t answered
    unfold Distinct
    split
    · exact lists _ _ _ answered
    · trivial
  have permits : Permits fun _ => True := by constructor <;> intros <;> trivial
  have checked := checkedSpec
    ((checking.safe_of_expected (specProblem_safe permits wg) answers).2 none rfl rfl)
  have listable := (reconciling.safe_of_expected (reconcilePeers_listable checked req) answers).2
    admitted rfl
  obtain ⟨range, reads, holds⟩ := listable.inside
  obtain ⟨event, member, write⟩ := written
  have safe : (syncPeerIdentity wg (identityOf svc secret) admitted).Safe Distinct
      (fun request => ∀ written, request = .updatePeerStatus written →
        ∃ peer ∈ admitted, written = withIdentity wg (identityOf svc secret) peer)
          fun _ => True := by
    refine syncPeerIdentity_safe wg _ admitted ?_
    rintro peer here written ⟨⟩
    exact ⟨peer, here, rfl⟩
  obtain ⟨peer, here, rfl⟩ := (syncing.safe_of_expected safe answers).1 event member published write
  obtain ⟨tunnel, read, keyed, usable⟩ :=
    desiredTunnel_published checked reads inside minted (holds peer here)
  exact ⟨tunnel, read, keyed, usable,
    fun wgIndex t events t' plain run => endpoint_off_wg usable plain run⟩

def sampleService : Resources.Service :=
  { Resources.serviceForWireguard sampleServer with clusterIP := "10.96.0.10" }

def sampleSecret : Secret :=
  Resources.secretForWireguard sampleServer (.other "" none) drawnKey.string drawnPublicKey.string

/-- The peer named laptop as admitted to the sample server, before its status carries the
server's identity. -/
def admittedLaptop : WireguardPeer :=
  { samplePeer "laptop" 7 firstKey with status := { WireguardPeerStatus.empty with
      status := ready, message := "Peer configured", address := "10.8.0.2" } }

theorem published_tunnel_usable_for_laptop : ∃ tunnel,
    desiredTunnel (withIdentity sampleServer
      (identityOf sampleService sampleSecret) admittedLaptop) = .ok tunnel ∧
      tunnel.serverKey = drawnPublicKey ∧ Usable sampleServer tunnel := by
  have replay : ∀ {α} (program : Reconciler α), Trace sampleEnv () program _ _ _ :=
    fun program => Program.play_trace sampleHandler (fun _ _ => rfl) program ()
  have checks : ((specProblem sampleServer).play sampleHandler ()).2.1.value = some none := by
    decide +kernel
  have first : ((reconcilePeers sampleServer.key sampleServer).play sampleHandler ()).2.1.value.map
      (·.head?) = some (some admittedLaptop) := by decide +kernel
  obtain ⟨admitted, returned, shown⟩ := Option.map_eq_some_iff.mp first
  obtain ⟨others, rfl⟩ := List.head?_eq_some_iff.mp shown
  have checking := replay (specProblem sampleServer)
  have reconciling := replay (reconcilePeers sampleServer.key sampleServer)
  rw [Program.Outcome.value_eq_some.mp checks] at checking
  rw [Program.Outcome.value_eq_some.mp returned] at reconciling
  obtain ⟨tunnel, read, keyed, usable, -⟩ :=
    published_tunnel_usable sampleEnv sampleServer sampleService sampleSecret
    drawnPublicKey _ (by rintro s items t listed; obtain rfl := Except.ok.inj listed; decide)
      checking
    (by decide +kernel) reconciling rfl
    (replay (syncPeerIdentity sampleServer (identityOf sampleService sampleSecret)
      (admittedLaptop :: others)))
    ⟨_, List.mem_cons_self, rfl⟩
  exact ⟨tunnel, read, keyed, usable⟩

end Routed
end TunnelOperator.Sidecar
