import TunnelOperator.Agent.LinkProgress
import TunnelOperator.Agent.Sync

/-! Sync after Sync: what each run leaves behind, and what no later one changes. -/
namespace TunnelOperator.Agent
open Net Netip Program

variable {n n' : NetNS ServerDevice} {order : MapOrder PeerConfig} {wg : ServerLink} {state : State}

theorem sync_own {t : NetNS ServerDevice} :
    (sync order wg state).Safe (Told t) (Own t wg.iface true) fun _ => True := by
  refine Safe.bind (rethrow_safe _ (syncLink_own _ _)) fun _ _ => ?_
  split
  · trivial
  · refine Safe.bind (rethrow_safe _ (syncAddress_own _)) fun _ _ => ?_
    exact Safe.bind (rethrow_safe _ (syncRoute_own _ _)) fun _ _ => syncWireguard_own

/-! No Sync waits for ever. -/

theorem configure_ends (e : SyncError) : Ends serverDriver e (configure order wg state) := by
  unfold configure
  split
  · exact ends_done _
  refine .call fun answer => ?_
  split
  · exact ends_done _
  refine .call fun answer => ?_
  cases answer <;> exact ends_done _

theorem configure_result
    (run : Trace (netEnv serverDriver) n (configure order wg state) events (.done (.error e)) n') :
    e ≠ .link .stuck := by
  unfold configure at run
  split at run
  · cases run
    simp
  obtain ⟨answer, u, _, -, after, -⟩ := run.call_returned
  split at after
  · cases after
    simp
  obtain ⟨answer', v, _, -, ended, -⟩ := after.call_returned
  cases answer' with
  | ok => cases ended
  | error e =>
    cases ended
    simp [SyncError.message]

theorem syncWireguard_ends : Ends serverDriver (.link .stuck) (syncWireguard order wg state) := by
  refine .call fun answer => ?_
  cases answer with
  | error e => exact ends_fail (by simp [SyncError.message])
  | ok =>
    intro n events n' run
    rcases run.bind_cases with ⟨-, cut⟩ | ⟨e, failed, -⟩ | ⟨result, v, _, _, configures, closes, -⟩
    · contradiction
    · exact configure_ends e _ _ _ failed
    · obtain ⟨closed, w, _, -, last, -⟩ := closes.call_inv (by simp)
      cases result with
      | ok => cases closed <;> cases last
      | error e =>
        cases closed with
        | ok =>
          cases last
          exact configure_result configures rfl
        | error e' => cases last

theorem sync_ends : Ends serverDriver (.link .stuck) (sync order wg state) := by
  have linked : Function.Injective SyncError.link := fun _ _ => SyncError.link.inj
  refine .bind ((syncLink_ends _ _ _).rethrow linked) fun _ => ?_
  split
  · exact ends_fail (by simp [SyncError.message])
  · refine .bind ((syncAddress_ends _ _).rethrow linked) fun _ => ?_
    exact .bind ((syncRoute_ends _ _ _).rethrow linked) fun _ => syncWireguard_ends

/-! A link that has the server's address and a route. -/

section Rests
variable {gw : Addr}

/-- The link has the server's address only, and the routes are these, one of them its own. -/
structure Rests (wg : ServerLink) (gw : Addr) (i : Nat) (routes : List LinkRoute)
    (n : NetNS ServerDevice) : Prop where
  link : HoldsOnly n wg.iface (.single gw) i
  unchanged : n.routes = routes
  has : ∃ r ∈ routes, r.linkIndex = i

/-- What the lookups tell of such a link. -/
def Finds (wg : ServerLink) (gw : Addr) (i : Nat) (request : NetCall Config)
    (answer : NetAnswer ServerDevice request) :
    Prop :=
  FindsOnly wg.iface (.single gw) i request answer ∧ match request, answer with
    | .system (.routeList j), .ok listed => j = i → ∃ r ∈ listed, r.linkIndex = i
    | _, _ => True

theorem Rests.step (rests : Rests wg gw i routes n) (spares : Spares request)
    (step : netEnv serverDriver n request answer n') :
    Finds wg gw i request answer ∧ Rests wg gw i routes n' := by
  obtain ⟨finds, holds⟩ := rests.link.step spares step
  refine ⟨⟨finds, ?_⟩, holds, ((step_rest step).2 spares.keeps).trans rests.unchanged, rests.has⟩
  split
  · rintro rfl
    obtain ⟨r, member, at_⟩ := rests.has
    have order := (routeList_ok step).2
    rw [rests.unchanged] at order
    exact ⟨r, order.mem_iff.mpr (List.mem_filter.mpr ⟨member, decide_eq_true at_⟩), at_⟩
  · trivial

theorem syncRoute_spares (cidr : String) :
    (syncRoute wg.iface cidr gw : NetProgram Config ServerDevice Unit).Safe
    (Finds wg gw i) Spares fun _ => True := by
  refine ⟨trivial, fun answer found => ?_⟩
  cases answer with
  | error e => trivial
  | ok link =>
    refine ⟨trivial, fun answer listed => ?_⟩
    cases answer with
    | error e => trivial
    | ok routes =>
      obtain rfl : link.index = i := found.1 rfl
      obtain ⟨r, member, at_⟩ := listed.2 rfl
      have some : routes.any (·.linkIndex = link.index) = true :=
        List.any_eq_true.mpr ⟨r, member, decide_eq_true at_⟩
      simp only [chooseRoute, if_pos some]
      trivial

theorem syncWireguard_spares :
    (syncWireguard order wg state).Safe (Finds wg gw i) Spares fun _ => True := by
  refine Safe.weaken syncWireguard_onDevice (fun request device => ?_) fun _ => id
  rcases request with - | duration | call
  · trivial
  · trivial
  · cases call <;> simp_all [OnDevice, Spares]

/-- A Sync of a state that gives the server this address, or none, changes no address and
no route. -/
theorem sync_spares (same : ∀ gw', serverAddress state = .ok gw' → gw' = gw) :
    (sync order wg state).Safe (Finds wg gw i) Spares fun _ => True := by
  refine Safe.bind (rethrow_safe _ (syncLink_spares _ _ _)) fun _ _ => ?_
  cases address : serverAddress state with
  | error e => trivial
  | ok gw' =>
    obtain rfl := same gw' address
    refine Safe.bind (rethrow_safe _ (syncAddress_spares.under fun _ _ finds => finds.1))
      fun _ _ => ?_
    exact Safe.bind (rethrow_safe _ (syncRoute_spares _)) fun _ _ => syncWireguard_spares

end Rests

/-! Histories. -/

/-- One more Sync, with whatever outcome, of a state that gives the server this address, or
none. -/
def SyncAt (wg : ServerLink) (gw : Addr) (n n' : NetNS ServerDevice) : Prop :=
  ∃ order state events outcome, (∀ gw', serverAddress state = .ok gw' → gw' = gw) ∧
    Trace (netEnv serverDriver) n (sync order wg state) events outcome n'

theorem Rests.stay (rests : Rests wg gw i routes n)
    (history : Relation.ReflTransGen (SyncAt wg gw) n n') :
    Rests wg gw i routes n' := by
  induction history with
  | refl => exact rests
  | tail _ next ih =>
    obtain ⟨order, state, events, outcome, same, run⟩ := next
    exact (run.safe (sync_spares same) (fun spares step rests => rests.step spares step) ih).1

/-- Sync ends, and touches no other link. When it succeeds, the link is up with its MTU, the
server's address is the only one on it, and its device has exactly the peers of the state.
Then it has a route, which is the one to the peers where the address has taken the place of
others; and no later Sync changes address or routes as long as the state gives the server
the same address. -/
theorem sync_settles (servable : Servable state)
    (run : Trace (netEnv serverDriver) n (sync order wg state) events outcome n') :
    outcome ≠ .fail (.link .stuck) ∧
    (∀ i l, n.links i = some l → l.name ≠ wg.iface → n'.links i = some l) ∧
    (outcome = .done () → ∃ i l, Synced wg state n n' i l ∧ ∀ gw, serverAddress state = .ok gw →
      ∀ later, Relation.ReflTransGen (SyncAt wg gw) n' later → Rests wg gw i n'.routes later) := by
  refine ⟨?_, fun i l there other => own_others run sync_own there other, ?_⟩
  · rintro rfl
    exact sync_ends _ _ _ run
  · rintro rfl
    obtain ⟨i, l, synced⟩ := sync_done servable run
    refine ⟨i, l, synced, fun gw address later history => ?_⟩
    obtain ⟨gw', address', only, rerouted⟩ := synced.address
    obtain rfl := Except.ok.inj (address'.symm.trans address)
    exact Rests.stay ⟨⟨l, synced.there, synced.name, only⟩, rfl, rerouted.has⟩ history

/-! A link that was just made can be synced. -/

section Progress
variable {l : Link ServerDevice}

theorem syncWireguard_can (servable : Servable state) (there : n.links i = some l)
    (order : MapOrder PeerConfig)
    (port : Int) (implementation : String) : ∃ events n', Trace (netEnv serverDriver) n
      (syncWireguard order ⟨l.name, port, implementation⟩ state) events (.done ()) n' := by
  obtain ⟨cfg, created, -⟩ := device_converges state servable l.device.peers order order port
  obtain ⟨parsed, -⟩ := configuration_created created
  have configures : Trace (netEnv serverDriver) n
      (configure order ⟨l.name, port, implementation⟩ state)
      [⟨.system (.device l.name), .ok l.device⟩, ⟨.system (.configureDevice l.name cfg), .ok ()⟩]
      (.done (.ok ()))
      (n.change there { l with device :=
        ⟨configureDevice l.device.peers cfg, some cfg.privateKey, cfg.listenPort⟩ } rfl) := by
    simp only [configure, parsed]
    refine .call ⟨_, .refl, .device there⟩ ?_
    simp only [Except.map, Except.mapError, created]
    exact .call ⟨_, .refl, .configured there rfl⟩ .done
  exact ⟨_, _, .call ⟨_, .refl, .opened⟩ (configures.bind (.call ⟨_, .refl, .closed⟩ .done))⟩

theorem sync_can (servable : Servable state) (address : serverAddress state = .ok gw)
    (read : parseCIDR (peerCIDR state) = .ok dst) (there : n.links i = some l)
    (mtu : l.mtu = serverMTU)
    (bare : l.addresses = []) (routeless : n.routes = []) (order : MapOrder PeerConfig) (port : Int)
    (implementation : String) : ∃ events n', Trace (netEnv serverDriver) n
      (sync order ⟨l.name, port, implementation⟩ state) events (.done ()) n' := by
  obtain ⟨e₁, u, linked, there, routes⟩ := syncLink_can serverDriver there implementation
  obtain ⟨e₂, v, l', addressed, there, name, -, routes', -⟩ :=
    syncAddress_can serverDriver there bare (.single gw)
  obtain ⟨e₃, w, routed, there⟩ :=
    syncRoute_can serverDriver there (routes'.trans (routes.trans routeless)) read gw
  obtain ⟨e₄, n', configured⟩ := syncWireguard_can servable there order port implementation
  rw [mtu] at linked
  rw [name] at routed configured
  refine ⟨e₁ ++ (e₂ ++ (e₃ ++ e₄)), n', (linked.rethrow_done _).bind ?_⟩
  simp only [address]
  exact (addressed.rethrow_done _).bind ((routed.rethrow_done _).bind configured)

end Progress

def newLink : Link ServerDevice :=
  ⟨"wg0", serverMTU, false, [], List.nodup_nil, ⟨swapDevice, none, 0⟩⟩

def newNS : NetNS ServerDevice where
  links i := if i = 3 then some newLink else none
  named first second _ := by
    split at first <;> split at second <;> simp_all
  routes := []
  tun := none
  started := []
  clock := 0

/-- A link that was just made, with the device of an earlier agent. -/
theorem newNS_settles : ∃ n' i l, Synced ⟨"wg0", 51820, "wireguard-go"⟩ swapState newNS n' i l := by
  have address : serverAddress swapState = .ok (.v4 0x0a080001#32) := by decide +kernel
  have read : parseCIDR (peerCIDR swapState) = .ok ⟨.v4 0x0a080000#32, 24, by decide⟩ := by
    decide +kernel
  obtain ⟨events, n', run⟩ :=
    sync_can (n := newNS) (i := 3) (l := newLink) swapState_servable address read
    rfl rfl rfl rfl backwards 51820 "wireguard-go"
  obtain ⟨i, l, synced, -⟩ := (sync_settles swapState_servable run).2.2 rfl
  exact ⟨n', i, l, synced⟩

end TunnelOperator.Agent
