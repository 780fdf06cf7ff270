import TunnelOperator.Agent.Racing
import TunnelOperator.Agent.SyncHistory

/-! Whichever of the racing Syncs succeeds, the server is as the state wants it from then
on: also when the configuration was computed from a device that others have changed since. -/
namespace TunnelOperator.Agent
open Net Netip Program

variable {wg : ServerLink} {state : State} {gw : Addr} {n n' : NetNS ServerDevice}
    {l : Link ServerDevice}

/-! The device. -/

theorem configFor (servable : Servable state)
    (created : createWireguardConfiguration order (.ok device) state wg.listenPort = .ok cfg) :
    ConfigFor wg state cfg := by
  obtain ⟨cfg', created', keeps, same⟩ :=
    createWireguardConfiguration_ok servable order device wg.listenPort
  obtain rfl := Except.ok.inj (created.symm.trans created')
  obtain ⟨key, port, -⟩ := configuration_created created
  exact ⟨keeps, fun p member => ⟨device, (mem_deviceEntries servable).mp (same.mem_iff.mp member)⟩,
    parseKey_ok key, port⟩

/-- A configuration computed from the device as it was read makes the device of now right. -/
theorem configured_stale (servable : Servable state) {dev now : ServerDevice}
    (created : createWireguardConfiguration order (.ok dev.peers) state wg.listenPort = .ok cfg)
    (improves : Improves state dev.peers now.peers) :
    Configured wg state ⟨configureDevice now.peers cfg, some cfg.privateKey, cfg.listenPort⟩ := by
  have config := configFor servable created
  obtain ⟨cfg', created', -, same⟩ :=
    createWireguardConfiguration_ok servable order dev.peers wg.listenPort
  obtain rfl := Except.ok.inj (created.symm.trans created')
  have applied : configureDevice now.peers cfg = now.peers.applyAll
      (cfg.peers.map PeerConfig.change) := by
    simp [configureDevice, config.keeps]
  refine ⟨?_, config.key.symm, config.port⟩
  rw [applied]
  exact applied_stale servable improves same

theorem configured_lasts : Lasts wg state gw fun l => Configured wg state l.device :=
    fun advances configured =>
  ⟨Settled.improved configured.peers advances.peers, advances.key configured.key,
    advances.port configured.port⟩

theorem configure_races (servable : Servable state) (order : MapOrder PeerConfig)
    (on : On wg (fun _ => True) i n) :
    Races wg state gw (fun result n => result = .ok () →
      On wg (fun l => Configured wg state l.device) i n) (configure order wg state) n := by
  have always : Lasts wg state gw fun _ => True := fun _ => id
  unfold configure
  split
  · exact fun _ _ failed => by contradiction
  refine ⟨trivial, fun t answer u moved reads => ?_⟩
  dsimp only
  cases answer with
  | error e =>
    split
    · exact fun _ _ failed => by contradiction
    · rename_i created
      obtain ⟨-, -, dev, found⟩ := configuration_created created
      contradiction
  | ok dev =>
    obtain ⟨l, there, name, -⟩ := on.later always moved
    obtain ⟨rfl, here⟩ := device_ok reads there name
    have read : On wg (fun l' => Improves state l.device.peers l'.device.peers) i u :=
      ⟨l, here, name, .refl state _⟩
    split
    · exact fun _ _ failed => by contradiction
    · rename_i cfg created
      refine ⟨configFor servable created, fun v answer w moved' writes => ?_⟩
      cases answer with
      | error e => exact fun _ _ failed => by contradiction
      | ok =>
        obtain ⟨l', there', name', improves⟩ :=
          read.later (fun advances known => known.trans advances.peers) moved'
        obtain ⟨dev, rfl, last⟩ := configureDevice_ok writes there' name'
        have configured : On wg (fun l => Configured wg state l.device) i w :=
          ⟨_, last, name', configured_stale servable created improves⟩
        exact fun x after _ => configured.later configured_lasts after

theorem syncWireguard_races (servable : Servable state) (order : MapOrder PeerConfig)
    (on : On wg (fun _ => True) i n) :
    Races wg state gw (fun _ => On wg (fun l => Configured wg state l.device) i)
      (syncWireguard order wg state) n := by
  refine ⟨trivial, fun t answer u moved opened => ?_⟩
  cases answer with
  | error e => trivial
  | ok =>
    have rules : SyncCall wg state gw (.system .openWgctrl) := trivial
    have always : Lasts wg state gw fun _ => True := fun _ => id
    have still := (on.later always moved).later always ((interference servable).call rules opened)
    refine Amid.bind (interference servable)
      (configure_races servable order still) fun result v known => ?_
    refine ⟨trivial, fun w answer x moved' closed => ?_⟩
    have rules' : SyncCall wg state gw (.system .closeWgctrl) := trivial
    cases result with
    | error e => cases answer <;> trivial
    | ok =>
      cases answer with
      | error e => trivial
      | ok => exact fun y after =>
          (((known rfl).later configured_lasts moved').later configured_lasts
          ((interference servable).call rules' closed)).later configured_lasts after

/-! The whole. -/

/-- The link as a Sync that succeeds leaves it. -/
structure Served (wg : ServerLink) (state : State) (gw : Addr) (l : Link ServerDevice) : Prop where
  mtu : l.mtu = serverMTU
  up : l.up = true
  address : l.addresses = [.single gw]
  device : Configured wg state l.device

theorem Left.only (left : Left gw [] false l) : l.addresses = [.single gw] := by
  have same : ∀ p ∈ l.addresses, p = .single gw :=
    fun p member => (left.others member).resolve_right List.not_mem_nil
  obtain ⟨k, replicated⟩ : ∃ k, l.addresses = List.replicate k (.single gw) :=
    ⟨_, List.eq_replicate_of_mem same⟩
  have once := l.distinct
  have there := left.there rfl
  rw [replicated] at once there ⊢
  have few := List.nodup_replicate.mp once
  obtain ⟨some, -⟩ := List.mem_replicate.mp there
  obtain rfl : k = 1 := by omega
  rfl

theorem sync_races (servable : Servable state) (address : serverAddress state = .ok gw)
    (order : MapOrder PeerConfig) (n : NetNS ServerDevice) :
    Races wg state gw (fun _ n => ∃ i, On wg (Served wg state gw) i n ∧ HasRoute i n)
      (sync order wg state) n := by
  have rules : Interference _ _ (Meanwhile wg state gw) := interference servable
  have linked : Lasts wg state gw fun l => l.mtu = serverMTU ∧ l.up = true := fun advances known =>
    ⟨advances.mtu known.1, advances.up known.2⟩
  refine Amid.bind rules (Amid.rethrow _ (syncLink_races servable wg.implementation n))
    fun _ t ⟨i, link⟩ => ?_
  simp only [address]
  refine Amid.bind rules (Amid.keeping rules
      (Amid.rethrow _ (syncAddress_races servable t)) link fun moved known =>
    known.later linked moved) fun _ u ⟨⟨j, addressed⟩, link⟩ => ?_
  obtain ⟨rfl, -⟩ := link.and addressed
  refine Amid.bind rules (Amid.keeping rules
    (Amid.rethrow _ (syncRoute_races servable addressed _)) link
    fun moved known => known.later linked moved) fun _ v ⟨routable, link⟩ => ?_
  have on : On wg (fun _ => True) i v := link.imp fun _ => trivial
  have configures := Amid.keeping rules
      (syncWireguard_races servable order on) link fun moved known =>
    known.later linked moved
  refine Amid.weaken (Amid.keeping rules configures routable fun moved known => known.later moved)
    fun _ w ⟨⟨configured, link⟩, addressed, routed⟩ => ⟨i, ?_, routed⟩
  refine ((link.and configured).2.and addressed).2.imp ?_
  rintro l ⟨⟨⟨mtu, up⟩, device⟩, left⟩
  exact ⟨mtu, up, left.only, device⟩

/-- A state with no address for the server is not served. -/
theorem sync_unaddressed (servable : Servable state) (address : serverAddress state = .error e)
    (order : MapOrder PeerConfig) (n : NetNS ServerDevice) :
    Races wg state gw (fun _ _ => False) (sync order wg state) n := by
  refine Amid.bind (interference servable)
    (Amid.rethrow _ (syncLink_races servable wg.implementation n)) fun _ t _ => ?_
  simp only [address]
  trivial

section Threads
variable {ι : Type} [DecidableEq ι] {order : ι → MapOrder PeerConfig} {j : ι}
  {c : Threads ι (NetNS ServerDevice) (NetCall Config) (NetAnswer ServerDevice) SyncError Unit}

/-- From any network namespace on, let any number of Syncs of one state run side by side,
be started and stopped at any time, and see each other's half-done work. Once one of them
has succeeded, the link is up with its MTU, its only address and a route, and its device
is exactly as the state wants it, and it stays so whatever the others still do. -/
theorem racing_syncs_serve (servable : Servable state)
    (reached : Threads.Reached (fun _ => netEnv serverDriver) (fun j => sync (order j) wg state)
      (fun _ _ => False) n c)
    (succeeded : c.running j = some (.done ())) :
    ∃ gw i l, serverAddress state = .ok gw ∧ c.state.links i = some l ∧ l.name = wg.iface ∧
      Served wg state gw l ∧
      ∃ r ∈ c.state.routes, r.linkIndex = i := by
  cases address : serverAddress state with
  | error e =>
    have rules : Interference _ _ (Meanwhile wg state (.v4 0)) := interference servable
    have never := reached.amid rules
      (fun j s => sync_unaddressed servable address (order j) s) succeeded
    exact (never.returned rules).elim
  | ok gw =>
    have rules : Interference _ _ (Meanwhile wg state gw) := interference servable
    have races := reached.amid rules (fun j s => sync_races servable address (order j) s) succeeded
    obtain ⟨i, ⟨l, there, name, served⟩, routed⟩ := races.returned rules
    exact ⟨gw, i, l, rfl, there, name, served, routed⟩

end Threads

def swapServer : ServerLink := ⟨"wg0", 51820, "wireguard-go"⟩

/-- The second has looked up the link, and stands there, when the first has run. -/
theorem swap_races : ∃ c : Threads Bool (NetNS ServerDevice) (NetCall Config) (NetAnswer ServerDevice) SyncError Unit,
    (∃ request next, c.running true = some (.call request next)) ∧
      ∃ gw i l, serverAddress swapState = .ok gw ∧ c.state.links i = some l ∧
        l.name = swapServer.iface ∧
        Served swapServer swapState gw l ∧ ∃ r ∈ c.state.routes, r.linkIndex = i := by
  have address : serverAddress swapState = .ok (.v4 0x0a080001#32) := by decide +kernel
  have read : parseCIDR (peerCIDR swapState) = .ok ⟨.v4 0x0a080000#32, 24, by decide⟩ := by
    decide +kernel
  obtain ⟨events, n', run⟩ :=
    sync_can (n := newNS) (i := 3) (l := newLink) swapState_servable address read
    rfl rfl rfl rfl backwards 51820 "wireguard-go"
  have begun : Threads.Reached (fun _ : Bool => netEnv serverDriver)
    (fun _ => sync backwards swapServer swapState)
    (fun _ _ => False) newNS _ := Threads.Reached.initial.step (.start true)
  have found : newNS.links 3 = some newLink := rfl
  have looked := (begun.step (.call true rfl ⟨_, .refl, .found found⟩)).step (.start false)
  obtain ⟨c, reached, rfl, done, others⟩ := looked.returns (Function.update_self ..) run
  exact ⟨c, ⟨_, _, (others true (by decide)).trans rfl⟩,
    racing_syncs_serve swapState_servable reached done⟩

end TunnelOperator.Agent
