import TunnelOperator.Controller.AddressHolding

/-! Address incumbency: whether a peer that state.json lists with an address keeps it in
every later state of its server. -/
namespace TunnelOperator.Controller
open Program Relation

/-- No operator has worked on the cluster yet. -/
def Fresh (c : Cluster) : Prop :=
  (∀ key, c.secrets key = none) ∧ ∀ peer ∈ c.peers, peer.status = .empty

/-- The pass wrote a state of the server that lists `v` with that address. -/
structure Admits (publicHalf : Wgtypes.Key → Wgtypes.Key) (faulty : Call → Prop)
    (server : NamespacedName) (v : WireguardPeer) (address : String) (c c' : Cluster) : Prop where
  pass : Pass publicHalf faulty server c c'
  stored : ∃ stored ∈ c.peers, stored.object = v.object
  wrote : c'.state server ≠ c.state server
  lists : ListsAt c' server v.key address

inductive BystandingStep (publicHalf : Wgtypes.Key → Wgtypes.Key) (faulty : Call → Prop)
    (server : NamespacedName) (v : WireguardPeer) : Cluster → Cluster → Prop where
  | pass : Pass publicHalf faulty req c c' → BystandingStep publicHalf faulty server v c c'
  | act : LeavesAlone server v action → BystandingStep publicHalf faulty server v c (c.act action)

/-- With every call answered as the stored objects have it: once a pass lists `v` with
an address, every later state lists it with that address. -/
def AddressIncumbency : Prop :=
  ∀ (publicHalf : Wgtypes.Key → Wgtypes.Key) (server : NamespacedName) (v : WireguardPeer) (address : String)
    (fresh before first last : Cluster), Fresh fresh →
    ReflTransGen (AnyStep publicHalf fun _ => False) fresh before →
    Admits publicHalf (fun _ => False) server v address before first →
    ReflTransGen (BystandingStep publicHalf (fun _ => False) server v) first last →
    ListsAt last server v.key address

/-! The pass that lists `v`. -/

section Admission
variable {c c' : Cluster} {server : NamespacedName} {v : WireguardPeer} {address : String}
  {wg : Wireguard}
  {publicHalf : Wgtypes.Key → Wgtypes.Key} {faulty : Call → Prop} {range : Ipam.PeerCIDR}
  {items : List WireguardPeer}

/-- Two peers a plan serves are one as soon as they share a name or an address. -/
theorem served_fair (reads : Ipam.Reads (effectivePeerCIDR4 wg) range)
    (distinct : (peers.map (·.key)).Nodup)
    (one : first ∈ (plan wg current peers).served) (two : second ∈ (plan wg current peers).served) :
    first.key = second.key ↔ first.status.address = second.status.address := by
  have names : ((plan wg current peers).served.map (·.key)).Nodup := served_names distinct current
  have addresses : ((plan wg current peers).served.map (·.status.address)).Nodup :=
    List.pairwise_map.mpr (served_apart reads distinct)
  constructor
  · intro same
    rw [List.inj_on_of_nodup_map names one two same]
  · intro same
    rw [List.inj_on_of_nodup_map addresses one two same]

/-- Once the plan that serves `v` is carried out, `v` is stored with the address it is
served with, and no other peer of the server is. -/
theorem heldBy_plan (reads : Ipam.Reads (effectivePeerCIDR4 wg) range)
    (permuted : List.Perm items c.peers)
    (serving : entry ∈ (plan wg (c.listed server) (relatedPeers server items)).served)
    (object : entry.object = v.object) :
    HeldBy server v entry.status.address (c.peers.map (applyWrites
      ((plan wg (c.listed server) (relatedPeers server items)).writes
        (effectivePeerCIDR4 wg)))) := by
  have distinct := related_distinct permuted server
  constructor
  · obtain ⟨stored, member, same⟩ := served_object serving
    refine ⟨_, List.mem_map_of_mem ((mem_related permuted).mp member).1, ?_, ?_⟩
    · rw [applyWrites_object, ← same, object]
    · rcases plan_settles (c.listed server) reads distinct member with
        ⟨served, inside, same', status⟩ | ⟨absent, -⟩
      · rw [status]
        exact (served_fair reads distinct inside serving).mp (key_of_object (same'.trans same.symm))
      · exact absurd (key_of_object same) (absent entry serving)
  · intro u member
    obtain ⟨p, inPeers, rfl⟩ := List.mem_map.mp member
    have whole : (applyWrites ((plan wg (c.listed server) (relatedPeers server items)).writes
        (effectivePeerCIDR4 wg)) p).object = p.object := applyWrites_object _ p
    intro gateway holds apart
    rw [gatewayKey_of_object whole] at gateway
    rcases plan_settles (c.listed server) reads distinct
      ((mem_related permuted).mpr ⟨inPeers, gateway⟩)
      with ⟨served, inside, same, status⟩ | ⟨-, unusable⟩
    · rw [status] at holds
      have name := (served_fair reads distinct inside serving).mpr holds
      refine absurd ?_ apart
      rw [key_of_object whole, ← key_of_object same, name, key_of_object object]
    · obtain ⟨-, -, -, usable, -⟩ := mem_served reads distinct serving
      exact absurd (holds ▸ usable) unusable

/-- The writes of the gateway identity that follow keep the address with `v`. -/
theorem heldBy_serve {read : Wireguard} {svc : Resources.Service}
    (reads : Ipam.Reads (effectivePeerCIDR4 wg) range) (permuted : List.Perm items c.peers)
    (specs : SameSpecs c d) (attached : gatewayKey v = server)
    (serving : entry ∈ (plan wg (c.listed server) (relatedPeers server items)).served)
    (object : entry.object = v.object) (held : HeldBy server v entry.status.address d.peers)
    (run : Trace (clusterEnv faulty) d (serve publicHalf read svc
      (plan wg (c.listed server) (relatedPeers server items)).served) events outcome c') :
    HeldBy server v entry.status.address c'.peers := by
  have distinct := related_distinct permuted server
  refine heldBy_trace server attached run ?_ held
  intro event member write writes
  have syncs := serve_writes run event member
  rw [writes] at syncs
  obtain ⟨id, peer, inside, rfl⟩ := syncs
  constructor
  · obtain ⟨origin, related, same⟩ := served_object inside
    obtain ⟨inPeers, gateway⟩ := (mem_related permuted).mp related
    obtain ⟨stored, inD, same'⟩ := specs.stored inPeers
    exact ⟨stored, inD, (gatewayKey_of_object same').trans gateway, same.trans same'.symm⟩
  · intro _
    rw [← key_of_object object]
    have fair : peer.key = entry.key ↔ peer.status.address = entry.status.address :=
      served_fair reads distinct inside serving
    exact fair

theorem keeps_of_admits (reliable : Reliable faulty)
    (admits : Admits publicHalf faulty server v address c c') :
    ∃ spec range, Ipam.Reads (effectivePeerCIDR4 spec) range ∧ range.Holds address ∧
      refusal spec v = none ∧
      Keeps server v address spec c' := by
  obtain ⟨events, outcome, run⟩ := admits.pass
  have unwritten : c'.secrets ≠ c.secrets := by
    intro same
    exact admits.wrote (state_of_secrets (congrFun same server))
  cases found : c.wireguards server with
  | none => exact absurd (missing_trace found run).1 unwritten
  | some wg =>
  cases pass_shape found run with
  | early untouched _ => exact absurd untouched.secrets unwritten
  | stopped _ _ _ _ _ _ _ untouched _ carried _ _ =>
    exact absurd ((execute_trace carried).1.trans untouched.secrets) unwritten
  | served read svc items d e admitted same renders permuted untouched quiet carried serving =>
  obtain ⟨range, reads⟩ := (renders.checked same).range
  have distinct := related_distinct permuted server
  have returns := (execute_trace carried).2.2 admitted rfl
  obtain ⟨returned, rfl, -⟩ :=
    execute_plan reliable reads (untouched.peers ▸ permuted) carried (by simp)
  obtain rfl := Outcome.done.inj returned
  -- The state the pass wrote, and the entry of `v` in it.
  have written : ∃ privateKey, c'.state server = some (desiredState wg privateKey
      (plan wg (c.listed server) (relatedPeers server items)).served) := by
    have named : read.key = server := (key_of_wireguard same).trans (c.named found)
    obtain ⟨-, kept | ⟨privateKey, written⟩⟩ := serve_state serving
    · rw [named] at kept
      refine absurd (kept.trans (state_of_secrets (congrFun ?_ server))) admits.wrote
      rw [applyAll_secrets, untouched.secrets]
    · rw [named] at written
      exact ⟨privateKey, written.trans (congrArg some (desiredState_of_object same _ _))⟩
  obtain ⟨privateKey, written⟩ := written
  obtain ⟨state, stated, listed, member, name, holds⟩ := admits.lists
  obtain rfl : state = _ := Option.some.inj (stated.symm.trans written)
  obtain ⟨entry, inside, rfl⟩ := mem_desiredState.mp member
  obtain ⟨holder, holding, same', usable, -⟩ := mem_served reads distinct inside
  have competing := keyHolders_sublist.subset holding
  obtain ⟨related, passes⟩ := mem_admissible.mp competing
  obtain ⟨inPeers, gateway⟩ := (mem_related permuted).mp related
  have object : entry.object = v.object := by
    obtain ⟨stored, inC, same''⟩ := admits.stored
    have equal : holder = stored := List.inj_on_of_nodup_map c.distinct inPeers inC
      (by rw [← key_of_object same', key_of_object same'']; exact name)
    rw [same', equal, same'']
  have object' : holder.object = v.object := same'.symm.trans object
  rw [refusal_congr wg object'] at passes
  have attached : Attached server v c := by
    refine ⟨(gatewayKey_of_object object').symm.trans gateway, ⟨holder, inPeers, object'⟩,
      wg, found, ?_⟩
    exact (namespaceNotAllowed_eq_none_iff wg v).mp ((refusal_eq_none_iff wg v).mp passes).1
  have operated : Operated server c' := by
    intro state after
    obtain rfl := Option.some.inj (after.symm.trans written)
    exact returned_distinct (renders.checked same) distinct returns privateKey
  have specs := trace_sameSpecs run
  have publicKey : entry.spec.publicKey = v.spec.publicKey := by rw [spec_of_object object]
  have listsKey : Lists c' server v.key v.spec.publicKey :=
    ⟨_, written, rendered entry, member, name, publicKey⟩
  have addressed : address = entry.status.address := holds.symm
  subst addressed
  refine ⟨wg.object, range, reads, usable, passes, ?_,
    ⟨_, written, entry, member, object, rfl⟩, ?_, ?_⟩
  · exact ⟨attached_of_sameSpecs attached specs, operated,
      fun _ another => alone_of_lists operated listsKey another⟩
  · rw [specs.wireguards, found]
    rfl
  · refine heldBy_serve reads permuted
      (untouched.specs.trans (trace_sameSpecs carried)) attached.1 inside object ?_ serving
    rw [applyAll_peers, untouched.peers]
    exact heldBy_plan reads permuted inside object

/-- Once a pass whose status writes succeed lists `v` with an address, every later state
of the server lists it with that address, for as long as `v` and the server's spec are
left alone and no older peer that still holds the address is pointed at the server. -/
theorem address_incumbency_without_elders (reliable : Reliable faulty) (before first last : Cluster)
    (admits : Admits publicHalf faulty server v address before first)
    (run : ReflTransGen (SettledStep publicHalf server v address) first last) :
    ListsAt last server v.key address := by
  obtain ⟨spec, range, reads, usable, passes, keeps⟩ := keeps_of_admits reliable admits
  exact (keeps_history reads usable passes keeps run).listsAt

end Admission

/-! Two servers with one peerCIDR. A guest of the neighbour holds the address that the
victim holds on its own server, and then moves there. -/

section Guest

def neighbour : NamespacedName := ⟨"vpn", "gw2"⟩

def neighbourServer : Wireguard := { sampleServer with name := "gw2" }

def guest (created : Int) : WireguardPeer :=
  { samplePeer "guest" created firstKey with spec := ⟨firstKey, "gw2", "vpn"⟩ }

def sharedCluster (created : Int) : Cluster where
  wireguards := fun key =>
    if key = gateway then some sampleServer else if key = neighbour then
      some neighbourServer else none
  secrets := fun _ => none
  clusterIPs := fun _ => "10.96.0.10"
  peers := [guest created, victim]
  named := fun stored => Cluster.named_ite stored rfl fun other =>
    Cluster.named_ite other rfl nofun
  distinct := show [⟨"apps", "guest"⟩, victim.key].Nodup by decide

def guestServed (created : Int) : Cluster := afterPass nothingLost neighbour (sharedCluster created)

def bothServed (created : Int) : Cluster := afterPass nothingLost gateway (guestServed created)

def moveIn : Action := .editPeer ⟨"apps", "guest"⟩ ⟨firstKey, "gw", "vpn"⟩

def guestMoved (created : Int) : Cluster :=
  afterPass nothingLost gateway ((bothServed created).act moveIn)

theorem nothing_lost {faulty : Call → Prop} (req : NamespacedName) (c : Cluster) :
    Pass (fun _ => drawnPublicKey) faulty req c (afterPass nothingLost req c) :=
  pass_afterPass nothingLost nothingLost_may req c

theorem moveIn_leaves : LeavesAlone gateway victim moveIn := by
  intro same
  exact absurd same (by decide)

theorem victim_keeps_address_from_latecomer :
    ListsAt (guestMoved 9) gateway victim.key "10.8.0.2" := by
  have admits : Admits (fun _ => drawnPublicKey) (fun _ => False) gateway victim "10.8.0.2"
      (guestServed 9) (bothServed 9) :=
    ⟨nothing_lost gateway _, by decide +kernel, by decide +kernel, by decide +kernel⟩
  refine address_incumbency_without_elders (fun _ lost => lost) (guestServed 9)
    (bothServed 9) _ admits ?_
  refine .tail (.single (.act moveIn_leaves ?_)) (.pass (nothing_lost gateway _))
  rintro ⟨u, member, named, -, elder, -⟩
  have younger : ∀ u ∈ (bothServed 9).peers, u.key = ⟨"apps", "guest"⟩ →
      older u victim = false := by
    decide +kernel
  rw [younger u member named] at elder
  contradiction

/-- A guest older than the victim takes the address along and the victim is dropped. -/
theorem addressIncumbency_fails : ¬ AddressIncumbency := by
  intro incumbency
  have fresh : Fresh (sharedCluster 1) := ⟨fun _ => rfl, by decide⟩
  have admits : Admits (fun _ => drawnPublicKey) (fun _ => False) gateway victim "10.8.0.2"
      (guestServed 1) (bothServed 1) :=
    ⟨nothing_lost gateway _, by decide +kernel, by decide +kernel, by decide +kernel⟩
  have run : ReflTransGen (BystandingStep (fun _ => drawnPublicKey) (fun _ => False) gateway victim)
      (bothServed 1) (guestMoved 1) :=
    .tail (.single (.act moveIn_leaves)) (.pass (nothing_lost gateway _))
  have kept := incumbency _ gateway victim "10.8.0.2" (sharedCluster 1) _ _ _ fresh
    (.single (.pass (nothing_lost neighbour _))) admits run
  have dropped : ¬ ListsAt (guestMoved 1) gateway victim.key "10.8.0.2" := by decide +kernel
  exact dropped kept

end Guest
end TunnelOperator.Controller
