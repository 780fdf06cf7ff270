import TunnelOperator.Agent.LinkProgress
import TunnelOperator.Sidecar.Applied
import TunnelOperator.Sidecar.Loop
import TunnelOperator.Sidecar.ReadTunnel

/-! Once a pass of the client has returned, no later pass lets a packet for the internet
leave the pod but through wg0, wherever that pass stops. While a pass changes wg0's address
such a packet has no route at all. -/
namespace TunnelOperator.Sidecar
open Netip Net Program
open Agent (LinkError NetNS Link Owned HoldsOnly netEnv)

variable {s s' : PodNet} {key : Wgtypes.Key} {t : Tunnel} {table table' : MainTable}

theorem owned_unique {n : NetNS Device} (first : Owned n iface i) (second : Owned n iface j) :
    i = j := by
  obtain ⟨l, there, name⟩ := first
  obtain ⟨l', there', name'⟩ := second
  exact n.named there there' (name.trans name'.symm)

/-- The client's own routes are those of the link there is. -/
def PodMarked (s : PodNet) : Prop :=
  ∀ r ∈ s.table.entries, r.protocol = routeProtocol →
    ∃ i, Owned s.ns Resources.wgInterface i ∧ Marked i r

theorem PodMarked.at (marked : PodMarked s)
    (lasts : ∀ i, Owned s.ns Resources.wgInterface i → Owned s'.ns Resources.wgInterface i)
    (owned : Owned s'.ns Resources.wgInterface i) : ∀ r ∈ s.table.entries, Marked i r := by
  intro r member own
  obtain ⟨j, there, holds⟩ := marked r member own
  obtain rfl := owned_unique (lasts j there) owned
  exact holds own

theorem Carried.owned (carried : Carried key t n i l) : Owned n Resources.wgInterface i :=
  ⟨l, carried.there, carried.name⟩

/-- The steps of a pass that has got so far as to move the routes. -/
abbrev PassOps (i : Nat) (localCIDRs : List Prefix) (ops : List RouteOp) : Prop :=
  ∀ op ∈ ops, (∃ r, op = .replace r ∧ Marked i r ∧ r.protocol = routeProtocol) ∨
    ∃ r, op = .delete r ∧ isStale i localCIDRs r = true

section Holds
variable {want : Prefix}

end Holds

/-! No packet leaves beside wg0. -/

/-- There is no default route but via the link of this index. -/
def OnlyVia (i : Nat) (table : MainTable) : Prop :=
  ∀ r ∈ table.entries, isDefault r = true → r.linkIndex = i

theorem OnlyVia.run (closed : OnlyVia i table) {localCIDRs : List Prefix} {ops : List RouteOp}
    (kinds : PassOps i localCIDRs ops) : OnlyVia i (runAll table ops) := by
  intro r member isDef
  rcases mem_runAll member with old | new
  · exact closed r old isDef
  · rcases kinds _ new with ⟨_, same, marked, own⟩ | ⟨_, same, -⟩
    · obtain rfl := RouteOp.replace.inj same
      rw [(marked own).2 isDef]
      rfl
    · contradiction

/-- The packet is covered by nothing but default routes. -/
def ForInternet (table : MainTable) (value : BitVec 32) : Prop :=
  ∀ r ∈ table.entries, r.dst.contains (.v4 value) = true → isDefault r = true

/-- A packet that no longer route is for leaves through wg0 or not at all. -/
theorem OnlyVia.lookup (closed : OnlyVia i table) (unspecific : ForInternet table value)
    (found : table.lookup (.v4 value) = some r) : r.linkIndex = i := by
  obtain ⟨⟨member, covers⟩, -⟩ := bestMatch_some found
  exact closed r member (unspecific r member covers)

section Sample

def publishedTunnel : Tunnel :=
  ⟨.single (.v4 0x0a080002), Controller.drawnPublicKey, ⟨.v4 0x0a60000a, 51820⟩, [serviceCIDR]⟩

def freshLink : Link Device :=
  ⟨Resources.wgInterface, Resources.tunnelMTU, false, [], List.nodup_nil, podDriver.fresh⟩

def freshPod : PodNet where
  ns := {
    links := fun i => if i = wg0 then some freshLink else none
    named := fun first second _ => by split at first <;> split at second <;> simp_all
    routes := []
    tun := none
    started := []
    clock := 0 }
  table := podTable

theorem tableAfter_kept (keeps : Agent.reroutes request = false) :
    TableAfter ⟨n, table⟩ ⟨n', table⟩ request answer := by
  unfold TableAfter
  split
  · contradiction
  · rfl

theorem onLink_can {program : Agent.NetProgram WgtypesConfig Device α} {n n' : NetNS Device}
    (run : Trace (netEnv podDriver) n program events (.done value) n')
    (keeps : ∀ event ∈ events, Agent.reroutes event.1 = false) (text : String) (table : MainTable) :
    ∃ later, Trace podEnv ⟨n, table⟩ (onLink text program) later (.done value) ⟨n', table⟩ := by
  obtain ⟨later, ran⟩ : ∃ later,
      Trace podEnv ⟨n, table⟩ (attempt PodCall.net (fun _ answer => answer) program) later
      (.done (.ok value)) ⟨n', table⟩ :=
    run.attempt_done PodCall.net _ (fun _ answer => answer)
        (fun n => PodNet.mk n table) fun member step =>
      ⟨⟨step, tableAfter_kept (keeps _ member)⟩, rfl⟩
  exact ⟨_, ran.bind .done⟩

theorem moveRoutes_can (run : Trace (Kernel AnyOrder) table (ensureRoutes i t.localCIDRs) events
    (.done ()) table')
    (n : NetNS Device) : ∃ later, Trace podEnv ⟨n, table⟩ (moveRoutes t i) later (.done (.ok ()))
      ⟨n, table'⟩ := by
  obtain ⟨later, ran⟩ : ∃ later, Trace podEnv ⟨n, table⟩
      (attempt PodCall.routes (fun _ answer => answer) (ensureRoutes i t.localCIDRs)) later
      (.done (.ok ())) ⟨n, table'⟩ :=
    run.attempt_done PodCall.routes _ (fun _ answer => answer)
      (PodNet.mk n) fun _ step => ⟨⟨step, rfl⟩, rfl⟩
  exact ⟨_, ran.bind .done⟩

theorem serveTunnel_can {n : NetNS Device} {l : Link Device} (there : n.links i = some l)
    (name : l.name = Resources.wgInterface)
    (changed : (deviceConfig (some l.device) key t).2 = true)
    (configures : Configures (deviceConfig (some l.device) key t).1 dev)
    (moves : Trace (Kernel AnyOrder) table (ensureRoutes i t.localCIDRs) events (.done ()) table') :
    ∃ later n', Trace podEnv ⟨n, table⟩ (serveTunnel key t) later (.done (.ok ()))
      ⟨n', table'⟩ := by
  let n' := n.change there { l with device := dev } rfl
  have reads : netEnv podDriver n (.system (.device Resources.wgInterface)) (.ok l.device) n :=
    ⟨_, .refl, name ▸ .device there⟩
  have writes : netEnv podDriver n
      (.system (.configureDevice Resources.wgInterface (deviceConfig (some l.device) key t).1))
      (.ok ()) n' := ⟨_, .refl, name ▸ .configured there configures⟩
  have here : n'.links i = some { l with device := dev } := Agent.change_there
  have found : Agent.NetAnswers podDriver n' (.system (.linkByName l.name)) (.ok ⟨i, l.mtu⟩) n' :=
    .found (l := { l with device := dev }) here
  have looks : netEnv podDriver n' (.system (.linkByName Resources.wgInterface))
      (.ok ⟨i, l.mtu⟩) n' :=
    ⟨_, .refl, name ▸ found⟩
  obtain ⟨later, moved⟩ := moveRoutes_can moves n'
  have configured : ∃ later, Trace podEnv ⟨n, table⟩ (configureTunnel key t l.device) later
      (.done (.ok ())) ⟨n', table'⟩ := by
    rw [configureTunnel, if_pos changed]
    exact ⟨_, .call (t := ⟨n', table⟩) ⟨writes, tableAfter_kept rfl⟩
      (.call (t := ⟨n', table⟩) ⟨looks, tableAfter_kept rfl⟩ moved)⟩
  obtain ⟨later, configured⟩ := configured
  exact ⟨_, n', .call (t := ⟨n, table⟩) ⟨reads, tableAfter_kept rfl⟩ configured⟩

def publishedDevice (key : Wgtypes.Key) : Device :=
  ⟨key, [⟨Controller.drawnPublicKey, some (udpAddrFromAddrPort publishedTunnel.endpoint),
    keepalive, allowed⟩]⟩

theorem publishedDevice_configured (key : Wgtypes.Key) :
    (deviceConfig (some podDriver.fresh) key publishedTunnel).2 = true ∧
    Configures (deviceConfig (some podDriver.fresh) key publishedTunnel).1
      (publishedDevice key) := by
  have differs : ¬ deviceMatches (some podDriver.fresh) key publishedTunnel allowed = true := by
    unfold deviceMatches
    dsimp only [podDriver]
    split <;> simp
  rw [deviceConfig, if_neg differs]
  refine ⟨rfl, fun key same => Option.some.inj same,
    fun _ => .cons ⟨rfl, fun given same => ?_, fun _ => Option.some.inj, fun _ => rfl⟩ .nil⟩
  exact ⟨given, same, rfl, .inl rfl⟩

theorem freshPod_applied (key : Wgtypes.Key) :
    ∃ events s', Trace podEnv freshPod (apply key publishedTunnel) events (.done ()) s' ∧
      s'.table = ((ensureRoutes wg0 [serviceCIDR]).play netlinkHandler podTable).2.2 := by
  have there : freshPod.ns.links wg0 = some freshLink := rfl
  obtain ⟨e₁, u, linked, there, -⟩ :=
    Agent.syncLink_can podDriver there Resources.userspaceImplementation
  obtain ⟨e₂, v, l, addressed, there, name, device, -, bare⟩ :=
    Agent.syncAddress_can podDriver there rfl publishedTunnel.address
  have anyOrder : ∀ t : MainTable, AnyOrder t t.entries := fun t => List.Perm.refl t.entries
  have moves := play_trace netlinkHandler (netlinkHandler_answers anyOrder)
    (ensureRoutes wg0 [serviceCIDR]) podTable
  have returns : ((ensureRoutes wg0 [serviceCIDR]).play netlinkHandler podTable).2.1 = .done () :=
    Outcome.value_eq_some.mp (by decide +kernel)
  rw [returns] at moves
  obtain ⟨changed, configures⟩ := publishedDevice_configured key
  have fresh : l.device = podDriver.fresh := device
  rw [← fresh] at changed configures
  obtain ⟨e₃, n, served⟩ :=
    serveTunnel_can (t := publishedTunnel) there name changed configures moves
  have still := (linked.safe_of_expected (Agent.syncLink_spares _ _ _) fun _ => trivial).1
  obtain ⟨e₁, first⟩ := onLink_can linked
    (fun event member => (still event member).keeps) "sync link: " podTable
  obtain ⟨e₂, second⟩ := onLink_can addressed bare "sync address: " podTable
  have opens : podEnv ⟨v, podTable⟩ (.net (.system .openWgctrl)) (.ok ()) ⟨v, podTable⟩ :=
    ⟨⟨v, .refl, .opened⟩, tableAfter_kept rfl⟩
  have closes : ∀ table, podEnv ⟨n, table⟩ (.net (.system .closeWgctrl)) (.ok ()) ⟨n, table⟩ :=
      fun _ =>
    ⟨⟨n, .refl, .closed⟩, tableAfter_kept rfl⟩
  have serves : Trace podEnv ⟨v, podTable⟩ (serveTunnel key publishedTunnel >>= fun result =>
      .call (.net (.system .closeWgctrl)) (closed result)) _ (.done ()) _ := served.bind
        (.call (closes _) .done)
  exact ⟨_, _, first.bind (second.bind (.call opens serves)), rfl⟩

end Sample
end TunnelOperator.Sidecar
