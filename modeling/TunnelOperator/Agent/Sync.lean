import TunnelOperator.Agent.DeviceConvergence
import TunnelOperator.Agent.LinkFrame
import TunnelOperator.Agent.PeerRange
import TunnelOperator.Library.Attempt

/-! internal/wireguard: Sync, which the agent runs on every new state and on every health
probe, over whatever earlier runs have left in the network namespace. -/
namespace TunnelOperator.Agent
open Net Netip Program

/-- The WireGuard device of the server. -/
structure ServerDevice where
  peers : Device
  privateKey : Option Wgtypes.Key
  listenPort : Int

/-- What a configuration that is refused may have done: its entries up to some of them,
and its key and its port or not. -/
structure HalfConfigured (dev : ServerDevice) (cfg : Config) (dev' : ServerDevice) : Prop where
  peers : ∃ k, dev'.peers = configureDevice dev.peers { cfg with peers := cfg.peers.take k }
  key : dev'.privateKey = dev.privateKey ∨ dev'.privateKey = some cfg.privateKey
  port : dev'.listenPort = dev.listenPort ∨ dev'.listenPort = cfg.listenPort

def serverDriver : Driver Config ServerDevice where
  fresh := ⟨.empty, none, 0⟩
  configures dev cfg dev' :=
    dev' = ⟨configureDevice dev.peers cfg, some cfg.privateKey, cfg.listenPort⟩
  partly := HalfConfigured

inductive SyncError where
  | link (e : LinkError)
  | configuration (e : ConfigurationError)
  | joined (first second : SyncError)
  deriving DecidableEq

abbrev ServerProgram := Program (NetCall Config) (NetAnswer ServerDevice) SyncError

def SyncError.message (text : String) : SyncError := .link (.message text)

/-- wireguard.Wireguard -/
structure ServerLink where
  iface : String
  listenPort : Int
  implementation : String

/-- wireguard.MTU -/
def serverMTU : Nat := 1420

section Programs
variable (order : MapOrder PeerConfig) (wg : ServerLink) (state : State)

/-- CreateWireguardConfiguration, which reads the device once the key is parsed, and
ConfigureDevice. -/
def configure : ServerProgram (Except SyncError Unit) :=
  match parseKey state.serverPrivateKey with
  | .error e => .done (.error (.configuration e))
  | .ok _ => .call (.system (.device wg.iface)) fun answer =>
    match createWireguardConfiguration order
        (answer.map (·.peers) |>.mapError (·.text)) state wg.listenPort with
    | .error e => .done (.error (.configuration e))
    | .ok cfg => .call (.system (.configureDevice wg.iface cfg)) fun
      | .ok _ => .done (.ok ())
      | .error e => .done (.error (.message e.text))

/-- The result of the deferred Close, joined to the one before. -/
def closing : Except SyncError Unit → Except SystemError Unit → ServerProgram Unit
  | .ok _, .ok _ => .done ()
  | .ok _, .error e => .fail (.message e.text)
  | .error e, .ok _ => .fail e
  | .error e, .error e' => .fail (.joined e (.message e'.text))

def syncWireguard : ServerProgram Unit :=
  .call (.system .openWgctrl) fun
    | .error e => .fail (.message ("open wgctrl client: " ++ e.text))
    | .ok _ => do
      let result ← configure order wg state
      .call (.system .closeWgctrl) (closing result)

def syncNetwork (gw : Addr) : ServerProgram Unit := do
  rethrow .link (syncAddress wg.iface (.single gw))
  rethrow .link (syncRoute wg.iface (peerCIDR state) gw)
  syncWireguard order wg state

/-- The server's address in the peer range. -/
def serverAddress : Except String Addr :=
  match parsePrefix (peerCIDR state) with
  | .error e => .error ("failed to parse IPv4 CIDR " ++ Strconv.quote (peerCIDR state) ++ ": " ++ e)
  | .ok p => (gatewayIPFromPrefix p).map (·.2)

def sync : ServerProgram Unit := do
  rethrow .link (syncLink wg.iface serverMTU wg.implementation)
  match serverAddress state with
  | .error e => .fail (.message e)
  | .ok gw => syncNetwork order wg state gw

end Programs

variable {n n' : NetNS ServerDevice} {l : Link ServerDevice} {order : MapOrder PeerConfig}
    {wg : ServerLink} {state : State}

/-! A run that succeeds. -/

theorem configuration_created
    (created : createWireguardConfiguration order device state port = .ok cfg) :
    parseKey state.serverPrivateKey = .ok cfg.privateKey ∧ cfg.listenPort = port ∧
      ∃ dev, device = .ok dev := by
  unfold createWireguardConfiguration at created
  cases parsed : parseKey state.serverPrivateKey with
  | error e =>
    rw [parsed] at created
    cases created
  | ok key =>
    rw [parsed] at created
    cases device with
    | error message => cases created
    | ok dev =>
      cases peers : createPeersConfiguration order (.ok dev) state with
      | error e =>
        rw [peers] at created
        cases created
      | ok ps =>
        rw [peers] at created
        cases created
        exact ⟨rfl, rfl, dev, rfl⟩

/-- The device as the state wants it. -/
structure Configured (wg : ServerLink) (state : State) (dev : ServerDevice) : Prop where
  peers : ∀ d, d ∈ dev.peers.peers ↔ Desired state d
  key : dev.privateKey = Wgtypes.parseKey state.serverPrivateKey
  port : dev.listenPort = wg.listenPort

theorem parseKey_ok {text : String} (parsed : parseKey text = .ok key) :
    Wgtypes.parseKey text = some key := by
  unfold parseKey at parsed
  split at parsed
  · rename_i found
    rw [found, Except.ok.inj parsed]
  · contradiction

theorem configure_done (servable : Servable state)
    (run : Trace (netEnv serverDriver) n (configure order wg state) events (.done (.ok ())) n')
    (there : n.links i = some l) (name : l.name = wg.iface) :
    ∃ dev, Configured wg state dev ∧ n'.links i = some { l with device := dev } := by
  unfold configure at run
  split at run
  · cases run
  obtain ⟨answer, u, _, reads, after, -⟩ := run.call_returned
  split at after
  · cases after
  rename_i cfg created
  obtain ⟨answer', v, _, writes, ended, -⟩ := after.call_returned
  cases answer' with
  | error e => cases ended
  | ok =>
    cases ended
    cases answer with
    | error e =>
      obtain ⟨-, -, dev, found⟩ := configuration_created created
      contradiction
    | ok dev =>
      obtain ⟨rfl, here⟩ := device_ok reads there name
      obtain ⟨dev', accepted, last⟩ := configureDevice_ok writes here name
      obtain ⟨cfg', created', -, reached, -⟩ :=
        device_converges state servable l.device.peers order order wg.listenPort
      obtain rfl := Except.ok.inj (created.symm.trans created')
      obtain ⟨key, port, -⟩ := configuration_created created'
      cases accepted
      exact ⟨_, ⟨reached, (parseKey_ok key).symm, port⟩, last⟩

theorem syncWireguard_done (servable : Servable state)
    (run : Trace (netEnv serverDriver) n (syncWireguard order wg state) events (.done ()) n')
    (there : n.links i = some l) (name : l.name = wg.iface) :
    ∃ dev, Configured wg state dev ∧ n'.links i = some { l with device := dev } := by
  obtain ⟨answer, u, _, opens, after, -⟩ := run.call_returned
  cases answer with
  | error e => cases after
  | ok =>
    obtain ⟨result, v, _, _, configures, closes, -⟩ := after.bind_returned
    obtain ⟨answer, w, _, closed, ended, -⟩ := closes.call_returned
    cases result with
    | error e => cases answer <;> cases ended
    | ok =>
      cases answer with
      | error e => cases ended
      | ok =>
        cases ended
        obtain ⟨dev, configured, here⟩ :=
          configure_done servable configures (step_kept opens (fun _ _ => id) _ _ there) name
        exact ⟨dev, configured, step_kept closed (fun _ _ => id) _ _ here⟩

/-- The link of the server's address has a route; and where that address has taken the place
of others, no route but the one to the peers. -/
structure Rerouted (wg : ServerLink) (state : State) (gw : Addr) (before n : NetNS ServerDevice)
    (i : Nat) : Prop where
  has : ∃ r ∈ n.routes, r.linkIndex = i
  only : before.links i = some old → old.name = wg.iface → old.addresses ≠ [] →
    .single gw ∉ old.addresses →
    ∀ r ∈ n.routes, r.linkIndex = i → ∃ dst, parseCIDR (peerCIDR state) = .ok dst ∧ r = ⟨i, dst, gw⟩

/-- What a successful Sync leaves behind. -/
structure Synced (wg : ServerLink) (state : State) (before n : NetNS ServerDevice) (i : Nat)
    (l : Link ServerDevice) :
    Prop where
  there : n.links i = some l
  name : l.name = wg.iface
  mtu : l.mtu = serverMTU
  up : l.up = true
  address : ∃ gw, serverAddress state = .ok gw ∧ l.addresses = [.single gw] ∧
    Rerouted wg state gw before n i
  device : Configured wg state l.device

/-- The calls about the device of a link. -/
def OnDevice (iface : String) : NetCall Cfg → Prop
  | .system .openWgctrl | .system .closeWgctrl | .system (.device _) => True
  | .system (.configureDevice name _) => name = iface
  | _ => False

theorem syncWireguard_onDevice
    {expected : (request : NetCall Config) → NetAnswer ServerDevice request → Prop} :
    (syncWireguard order wg state).Safe expected (OnDevice wg.iface) fun _ => True := by
  refine ⟨trivial, fun answer _ => ?_⟩
  cases answer with
  | error e => trivial
  | ok =>
    refine Safe.bind ?_ fun result (_ : True) => ⟨trivial, fun closed _ => ?_⟩
    · unfold configure
      split
      · trivial
      · refine ⟨trivial, fun answer _ => ?_⟩
        dsimp only
        split
        · trivial
        · refine ⟨rfl, fun answer _ => ?_⟩
          cases answer <;> trivial
    · cases result <;> cases closed <;> trivial

theorem syncWireguard_own {t : NetNS ServerDevice} :
    (syncWireguard order wg state).Safe (Told t) (Own t wg.iface moves) fun _ => True := by
  refine Safe.weaken syncWireguard_onDevice (fun request device => ?_) fun _ => id
  rcases request with - | duration | call
  · trivial
  · trivial
  · cases call <;> simp_all [OnDevice, Own]

theorem Routed.route (routed : Routed iface cidr gw n n') (there : n'.links i = some l)
    (name : l.name = iface) :
    ∃ r ∈ n'.routes, r.linkIndex = i := by
  cases routed with
  | there named name' some same =>
    obtain rfl := n'.named named there (name'.trans name.symm)
    exact same.symm ▸ some
  | added named name' none parsed new =>
    obtain rfl := n'.named named there (name'.trans name.symm)
    exact ⟨_, new.symm ▸ List.mem_append_right _ (List.mem_singleton_self _), rfl⟩

/-- A link that had no route has no route but the one asked for. -/
theorem Routed.only (routed : Routed iface cidr gw n n') (there : n'.links i = some l)
    (name : l.name = iface)
    (none : ∀ r ∈ n.routes, r.linkIndex ≠ i) (member : r ∈ n'.routes) (at_ : r.linkIndex = i) :
    ∃ dst, parseCIDR cidr = .ok dst ∧ r = ⟨i, dst, gw⟩ := by
  cases routed with
  | there named name' some same => exact absurd at_ (none r (same ▸ member))
  | added named name' _ parsed new =>
    obtain rfl := n'.named named there (name'.trans name.symm)
    rw [new, List.mem_append] at member
    rcases member with old | last
    · exact absurd at_ (none r old)
    · exact ⟨_, parsed, List.mem_singleton.mp last⟩

theorem sync_done (servable : Servable state)
    (run : Trace (netEnv serverDriver) n (sync order wg state) events (.done ()) n') :
    ∃ i l, Synced wg state n n' i l := by
  obtain ⟨⟨⟩, u, _, _, links, after, -⟩ := run.bind_returned
  obtain ⟨i, l, there, name, mtu, -, before⟩ := syncLink_done links.rethrown_done
  cases address : serverAddress state with
  | error e =>
    simp only [address] at after
    cases after
  | ok gw =>
    simp only [address] at after
    obtain ⟨⟨⟩, v, _, _, addresses, after, -⟩ := after.bind_returned
    obtain ⟨⟨⟩, w, _, _, routes, configures, -⟩ := after.bind_returned
    obtain ⟨l', here, only, up, name', mtu', -, flushed⟩ :=
      syncAddress_done addresses.rethrown_done there name
    obtain ⟨kept, result⟩ := syncRoute_run routes.rethrown_done
    have routed := result.resolve_right (by simp)
    obtain ⟨dev, configured, last⟩ := syncWireguard_done servable configures (kept i l' here) name'
    have same := own_routes configures _ syncWireguard_own
    refine ⟨i, _, last, name', mtu'.trans mtu, up, ⟨gw, address, only, ?_⟩, configured⟩
    constructor
    · rw [same]
      exact routed.route (kept i l' here) name'
    · intro old found named some other
      obtain ⟨-, unchanged, -⟩ := before i old found named
      rw [same]
      exact fun r => routed.only (kept i l' here) name'
        (flushed (unchanged ▸ some) (unchanged ▸ other))

end TunnelOperator.Agent
