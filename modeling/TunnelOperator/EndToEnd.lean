import TunnelOperator.Agent.SyncHistory
import TunnelOperator.Controller.Converged
import TunnelOperator.Sidecar.NoLeak

/-! One pass of the operator, a Sync of the server's agent and a pass of a client's sidecar:
the two ends of the tunnel meet. -/
namespace TunnelOperator
open Controller Netip Net Program
open Agent (ServerLink ServerDevice Link Servable Desired netEnv serverDriver)
open Sidecar (Tunnel desiredTunnel podEnv)

/-- The server's link as the arguments that the Deployment gives its agent name it. -/
def gatewayLink : ServerLink :=
  ⟨Resources.wgInterface, Resources.wireguardPort, Resources.userspaceImplementation⟩

/-- Each end has its own key and knows the other by its public half, the server sends what
is for the client's only address to this client and to no other, and the client finds the
server at `host`, where it listens. -/
structure Meet (publicHalf : Wgtypes.Key → Wgtypes.Key) (serverKey clientKey : Wgtypes.Key)
    (host : BitVec 32) (server : Link ServerDevice) (client : Link Sidecar.Device) : Prop where
  ownKeys : server.device.privateKey = some serverKey ∧ client.device.privateKey = clientKey
  reached : ∃ address, client.addresses = [address] ∧
    ⟨publicHalf clientKey, [address]⟩ ∈ server.device.peers.peers ∧
    ∀ d ∈ server.device.peers.peers, address ∈ d.allowedIPs → d.publicKey = publicHalf clientKey
  found : ∃ p told, client.device.peers = [p] ∧ p.publicKey = publicHalf serverKey ∧
    p.endpoint = some told ∧
    Spells told.ip host ∧ told.port = server.device.listenPort

/-- The tunnel of a peer leads to the server of this key at `host`. -/
structure Leads (serverPublic : Wgtypes.Key) (host : BitVec 32) (peer : WireguardPeer)
    (t : Tunnel) : Prop where
  address : ∃ bits, peer.status.address = (Addr.v4 bits).string ∧ t.address = .single (.v4 bits)
  endpoint : t.endpoint = ⟨.v4 host, Resources.wireguardPort⟩
  serverKey : t.serverKey = serverPublic

section Published
variable {c c' : Cluster} {req : NamespacedName} {wg : Wireguard} {range : Ipam.PeerCIDR}
  {secret : Secret}
  {publicHalf : Wgtypes.Key → Wgtypes.Key} {serverPublic : Wgtypes.Key} {host : BitVec 32}
    {S : List WireguardPeer}

/-- Every peer of a tidy cluster's state is told a tunnel that leads to the server. -/
theorem tidy_leads (checked : CheckedSpec wg) (reads : Ipam.Reads (effectivePeerCIDR4 wg) range)
    (tidy : Tidy req wg range (identityOf (assigned c wg) secret) c' S)
    (inside : clusterIPOutside (assigned c wg).name
      (assigned c wg).clusterIP wg.spec.localCIDRs = .ok ())
    (minted : secret.data.publicKey = some serverPublic.string)
    (placed : (assigned c wg).clusterIP = (Addr.v4 host).string)
    (member : s ∈ S) : ∃ t, desiredTunnel s = .ok t ∧ Leads serverPublic host s t := by
  obtain ⟨holds, -, carries⟩ := tidy.ready s member
  obtain ⟨t, read, keyed, -⟩ := Sidecar.desiredTunnel_published checked reads inside minted holds
  rw [withIdentity_of_carries carries] at read
  have told := Sidecar.desiredTunnel_read read
  obtain ⟨bits, parsed, single⟩ := told.address
  simp only [carriesIdentity, Bool.and_eq_true, decide_eq_true_eq] at carries
  refine ⟨t, read, ⟨bits, parseAddr_v4_iff.mp parsed, single⟩, ?_, keyed⟩
  have parses : parseAddrPort ((Addr.v4 host).string ++ ":" ++ Nat.repr Resources.wireguardPort) =
      .ok ⟨.v4 host, Resources.wireguardPort⟩ :=
        parseAddrPort_v4 host (by decide) (by decide) (by decide)
  have endpoint := told.endpoint
  rw [carries.1.1, identityOf, placed, Sidecar.joinHostPort_v4, parses] at endpoint
  exact (Except.ok.inj endpoint).symm

/-- What one clean pass publishes: a state that the agent can serve, each of whose entries
is about a stored peer. -/
theorem published_state (renderable : Renderable req wg c) (stored : c.secrets req = some secret)
    (minted : secret.data.privateKey = some (Wgtypes.Key.string serverKey))
    (pass : CleanPass publicHalf req c events c') :
    ∃ range S state, Ipam.Reads (effectivePeerCIDR4 wg) range ∧
      Tidy req wg range (identityOf (assigned c wg) secret) c' S ∧ c'.state req = some state ∧
        Servable state ∧
      state.serverPrivateKey = serverKey.string ∧ ∀ entry, entry ∈ state.peers ↔
        ∃ s ∈ S, rendered s = entry := by
  have checked := checkedSpec renderable.spec
  obtain ⟨range, reads⟩ := checked.range
  obtain ⟨items, passed⟩ := clean_pass renderable stored pass
  have tidy := tidy_passed checked reads passed
  have text := stateOf_passed wg secret (plan wg (secretKeys secret) (relatedPeers req items))
    (identityOf (assigned c wg) secret)
  rw [StateOf, keptSecret_privateKey, minted, Option.getD_some] at text
  refine ⟨range, _, desiredState wg serverKey.string _, reads, tidy, ?_, ?_, rfl,
    fun entry => mem_desiredState⟩
  · simp only [Cluster.state, passed.secrets, Function.update_self, Option.bind_some, text,
      StateText.unmarshal]
  · have listable : Listable wg (synced wg (identityOf (assigned c wg) secret)
        (plan wg (secretKeys secret) (relatedPeers req items))) :=
      { keys := tidy.keys
        addresses := tidy.addresses
        canonical := fun s member => ((refusal_eq_none_iff wg s).mp (tidy.stored s member).2).2
        allowed := fun s member => (namespaceNotAllowed_eq_none_iff wg s).mp
          ((refusal_eq_none_iff wg s).mp (tidy.stored s member).2).1
        inside := ⟨range, reads, fun s member => (tidy.ready s member).1⟩ }
    exact .of_listable (desiredState_listable listable serverKey.string) rfl

end Published

section Ends
variable {publicHalf : Wgtypes.Key → Wgtypes.Key} {serverKey clientKey serverPublic : Wgtypes.Key}
  {host : BitVec 32} {state : State} {entry peer : WireguardPeer} {t : Tunnel}

theorem Leads.client_end (leads : Leads serverPublic host peer t)
    (run : Trace podEnv s (Sidecar.apply clientKey t) events (.done ()) s') :
    ∃ j client, Sidecar.Carried clientKey t s'.ns j client ∧
      Sidecar.HasTunnel (fun n => Sidecar.EveryIPv4 n ∨ Sidecar.Disguised n) clientKey t host
        client.device := by
  have ipv4 : t.endpoint.addr = .v4 host := by rw [leads.endpoint]
  have fits : t.endpoint.port < 2 ^ 16 := by
    rw [leads.endpoint]
    exact (by decide : Resources.wireguardPort < 2 ^ 16)
  rcases Sidecar.apply_run run ipv4 fits with ⟨-, unfinished⟩ | ⟨j, client, carried, -⟩
  · exact absurd rfl unfinished
  · obtain ⟨device, same, tunnel⟩ := (Sidecar.deviceMatches_iff ipv4).mp carried.device
    obtain rfl := Option.some.inj same
    exact ⟨j, client, carried, tunnel⟩

theorem Leads.meet {client : Link Sidecar.Device} (leads : Leads (publicHalf serverKey) host peer t)
    (servable : Servable state) (minted : state.serverPrivateKey = serverKey.string)
    (member : rendered peer ∈ state.peers)
    (registered : peer.spec.publicKey = (publicHalf clientKey).string)
    (synced : Agent.Synced gatewayLink state n n' i server)
    (carried : Sidecar.Carried clientKey t ns j client)
    (tunnel : Sidecar.HasTunnel network clientKey t host client.device) :
    Meet publicHalf serverKey clientKey host server client := by
  obtain ⟨bits, address, single⟩ := leads.address
  have desired : Desired state ⟨publicHalf clientKey, [t.address]⟩ :=
    ⟨rendered peer, member, registered, bits, address, by rw [single]⟩
  obtain ⟨p, told, -, alone, keyed, given, ⟨spelled, port⟩, -⟩ := tunnel.peer
  refine ⟨⟨?_, tunnel.privateKey⟩,
    ⟨t.address, carried.address, (synced.device.peers _).mpr desired, ?_⟩,
    p, told, alone, keyed.trans leads.serverKey, given, spelled, ?_⟩
  · rw [synced.device.key, minted, Wgtypes.parseKey_string]
  · intro d present claims
    by_contra apart
    exact Desired.disjoint servable ((synced.device.peers d).mp present) desired apart claims
      (List.mem_singleton_self _)
  · rw [port, leads.endpoint, synced.device.port]
    rfl

end Ends

/-- After one clean pass of the operator over a Wireguard that it renders and that has its
Secret with a key pair, the published state passes the agent's check, and every entry of it
is about a stored WireguardPeer whose status reads as a tunnel. Once the server's agent has
synced that state, and the sidecar whose public key the peer carries has applied that
tunnel, the two ends meet. -/
theorem tunnel_ends_meet {publicHalf : Wgtypes.Key → Wgtypes.Key} {serverKey : Wgtypes.Key}
    {req : NamespacedName}
    {wg : Wireguard} {c c' : Cluster} {secret : Secret} {events : List (Event Call Answer)}
    (renderable : Renderable req wg c) (stored : c.secrets req = some secret)
    (ownKey : secret.data.privateKey = some serverKey.string)
    (publicKey : secret.data.publicKey = some (publicHalf serverKey).string)
    (pass : CleanPass publicHalf req c events c') :
    ∃ host state, (assigned c wg).clusterIP = (Addr.v4 host).string ∧ c'.state req = some state ∧
      Agent.isStateValid state = none ∧ ∀ entry ∈ state.peers, ∃ peer ∈ relatedPeers req c'.peers,
        rendered peer = entry ∧
        ∃ t, desiredTunnel peer = .ok t ∧
          ∀ clientKey, peer.spec.publicKey = (publicHalf clientKey).string →
            ∀ order n n' s s' syncing applying,
            Trace (netEnv serverDriver) n (Agent.sync order gatewayLink state) syncing
              (.done ()) n' →
            Trace podEnv s (Sidecar.apply clientKey t) applying (.done ()) s' →
            ∃ i server j client, n'.links i = some server ∧ server.name = Resources.wgInterface ∧
              s'.ns.links j = some client ∧ client.name = Resources.wgInterface ∧
              Meet publicHalf serverKey clientKey host server client := by
  obtain ⟨range, S, state, reads, tidy, published, servable, minted, entries⟩ :=
    published_state renderable stored ownKey pass
  have checked := checkedSpec renderable.spec
  obtain ⟨host, placed, -⟩ := Sidecar.accepted_clusterIP checked reads renderable.inside
  refine ⟨host, state, placed, published, Agent.isStateValid_of_servable servable minted,
    fun entry member => ?_⟩
  obtain ⟨peer, listed, rfl⟩ := (entries entry).mp member
  obtain ⟨t, read, leads⟩ := tidy_leads checked reads tidy renderable.inside publicKey placed listed
  refine ⟨peer, (tidy.stored peer listed).1, rfl, t, read, ?_⟩
  intro clientKey registered order n n' s s' syncing applying syncs applies
  obtain ⟨i, server, synced⟩ := Agent.sync_done servable syncs
  obtain ⟨j, client, carried, tunnel⟩ := leads.client_end applies
  exact ⟨i, server, j, client, synced.there, synced.name, carried.there, carried.name,
    leads.meet servable minted member registered synced carried tunnel⟩

/-! The four peers that want two addresses, after one pass: the ends of the first one's tunnel. -/

section Sample

/-- The public halves of the server's key and of any other. -/
def sampleHalf (key : Wgtypes.Key) : Wgtypes.Key := if key = drawnKey then drawnPublicKey
    else Agent.swapKey 0

@[irreducible] def servedCluster : Cluster :=
  ((reconcile sampleHalf gateway).play (apiserver nothingLost) crowdedCluster).2.2

theorem servedCluster_passed :
    ∃ events, CleanPass sampleHalf gateway crowdedCluster events servedCluster := by
  unfold servedCluster
  have answers : ∀ c request, clusterEnv NoFault c request (apiserver nothingLost c request).1
      (apiserver nothingLost c request).2 := apiserver_answers nothingLost_may
  exact ⟨_, _, play_whole _ _ _, play_trace (apiserver nothingLost) answers _ _⟩

theorem crowded_ends_meet :
    ∃ host server client, Meet sampleHalf drawnKey (Agent.swapKey 2) host server client := by
  have renderable : Renderable gateway crowdedServer crowdedCluster := by
    refine ⟨⟨rfl, by decide +kernel, ?_, by decide +kernel⟩, by decide⟩
    rintro src ⟨⟩
  have stored : crowdedCluster.secrets gateway =
      some (Resources.secretForWireguard crowdedServer (.other "truncated" none)
      drawnKey.string drawnPublicKey.string) := rfl
  obtain ⟨events, pass⟩ := servedCluster_passed
  have publicKey : (Resources.secretForWireguard crowdedServer
      (.other "truncated" none) drawnKey.string
      drawnPublicKey.string).data.publicKey = some (sampleHalf drawnKey).string := by
    rw [sampleHalf, if_pos rfl]
    rfl
  obtain ⟨range, S, state, -, -, published, servable, -⟩ :=
    published_state renderable stored rfl pass
  obtain ⟨host, state', -, published', -, ends⟩ :=
    tunnel_ends_meet renderable stored rfl publicKey pass
  obtain rfl := Option.some.inj (published.symm.trans published')
  have shown : (servedCluster.state gateway).map (fun state => (state.peers.head?.map (·.name),
      Agent.serverAddress state, parseCIDR (Agent.peerCIDR state))) =
      some (some "a", .ok (.v4 0x0a080001#32), .ok ⟨.v4 0x0a080000#32, 30, by decide⟩) := by
        decide +kernel
  rw [published, Option.map_some, Option.some.injEq, Prod.mk.injEq, Prod.mk.injEq] at shown
  obtain ⟨first, address, read⟩ := shown
  obtain ⟨entry, head, name⟩ := Option.map_eq_some_iff.mp first
  obtain ⟨peer, related, rfl, t, tunnel, meet⟩ := ends entry (List.mem_of_head? head)
  have told : ∀ p ∈ relatedPeers gateway servedCluster.peers, p.name = "a" →
      p.spec.publicKey = firstKey ∧ desiredTunnel p = .ok Sidecar.publishedTunnel := by
        decide +kernel
  obtain ⟨registered, leads⟩ := told peer related name
  obtain rfl := Except.ok.inj (tunnel.symm.trans leads)
  obtain ⟨syncing, n', syncs⟩ :=
    Agent.sync_can (n := Agent.newNS) (i := 3) (l := Agent.newLink) servable address read
    rfl rfl rfl rfl Agent.backwards Resources.wireguardPort Resources.userspaceImplementation
  obtain ⟨applying, s', applies, -⟩ := Sidecar.freshPod_applied (Agent.swapKey 2)
  have half : firstKey = (sampleHalf (Agent.swapKey 2)).string := by decide +kernel
  obtain ⟨-, server, -, client, -, -, -, -, met⟩ :=
    meet (Agent.swapKey 2) (registered.trans half) Agent.backwards _ n' _ s' syncing applying
      syncs applies
  exact ⟨host, server, client, met⟩

end Sample
end TunnelOperator
