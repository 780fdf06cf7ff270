import TunnelOperator.Controller.KeyIncumbency
import TunnelOperator.Controller.Outcomes

/-! What keeps a listed peer on its address: it is stored with it, no older peer of its
server is, and no pass and no action of the others changes that. -/
namespace TunnelOperator.Controller
open Program Relation

/-- The server's state.json lists the peer of that name with that address. -/
def ListsAt (c : Cluster) (server name : NamespacedName) (address : String) : Prop :=
  ∃ state ∈ c.state server, ∃ peer ∈ state.peers, peer.key = name ∧ peer.status.address = address

instance (c : Cluster) (server name : NamespacedName) (address : String) :
    Decidable (ListsAt c server name address) :=
  inferInstanceAs (Decidable (∃ state ∈ c.state server, _))

/-- Actions that leave `v` and its server as they are. -/
def LeavesAlone (server : NamespacedName) (v : WireguardPeer) : Action → Prop
  | .createPeer _ | .createWireguard _ => True
  | .editPeer name _ | .deletePeer name => name ≠ v.key
  | .editWireguard name _ | .deleteWireguard name => name ≠ server

/-- An edit that points an older peer at the server while its status still holds the
address. -/
def BringsElder (server : NamespacedName) (v : WireguardPeer) (address : String) (c : Cluster) :
  Action → Prop
  | .editPeer name spec =>
      ∃ u ∈ c.peers, u.key = name ∧ u.status.address = address ∧ older u v = true ∧
      gatewayKey { u with spec := spec } = server
  | _ => False

/-- The steps address incumbency holds for. -/
inductive SettledStep (publicHalf : Wgtypes.Key → Wgtypes.Key) (server : NamespacedName)
    (v : WireguardPeer) (address : String) : Cluster → Cluster → Prop where
  | pass : Pass publicHalf (fun _ => True) req c c' → SettledStep publicHalf server v address c c'
  | act : LeavesAlone server v action → ¬ BringsElder server v address c action →
      SettledStep publicHalf server v address c (c.act action)

section Held
variable {c : Cluster} {server req : NamespacedName} {v : WireguardPeer} {address : String}
  {peers : List WireguardPeer}

/-- `v` is stored with the address, and no older peer of the server is. -/
structure HeldBy (server : NamespacedName) (v : WireguardPeer) (address : String)
    (peers : List WireguardPeer) : Prop where
  stored : ∃ stored ∈ peers, stored.object = v.object ∧ stored.status.address = address
  unrivaled : ∀ u ∈ peers, gatewayKey u = server → u.status.address = address → u.key ≠ v.key →
    older u v = false

/-- A write to a peer of another server, or one that gives the address to `v` alone,
leaves it held. -/
theorem heldBy_put (attached : gatewayKey v = server)
    (objects : peers.map (·.object) = c.peers.map (·.object)) (own : OwnWrite c req write)
    (fair : req = server → (write.key = v.key ↔ write.status.address = address))
    (held : HeldBy server v address peers) :
    HeldBy server v address (Cluster.putStatus peers write) := by
  obtain ⟨origin, inside, ours, same⟩ := own
  have written : ∀ p ∈ peers, p.key = write.key → gatewayKey p = req := by
    intro p member named
    obtain ⟨p', inside', object⟩ : ∃ p' ∈ c.peers, p'.object = p.object := by
      have : p.object ∈ c.peers.map (·.object) := objects ▸ List.mem_map_of_mem member
      simpa using List.mem_map.mp this
    have equal : p' = origin := by
      apply List.inj_on_of_nodup_map c.distinct inside' inside
      rw [key_of_object object, named, key_of_object same]
    rw [← gatewayKey_of_object object, equal, ours]
  constructor
  · obtain ⟨stored, member, object, holds⟩ := held.stored
    refine ⟨_, List.mem_map_of_mem member, ?_⟩
    split
    · rename_i named
      refine ⟨object, ?_⟩
      have here : req = server := by
        rw [← written stored member named, gatewayKey_of_object object, attached]
      exact (fair here).mp (named.symm.trans (key_of_object object))
    · exact ⟨object, holds⟩
  · intro u member
    obtain ⟨p, inPeers, rfl⟩ := List.mem_map.mp member
    split
    · rename_i named
      intro gateway takes apart
      have here : req = server := (written p inPeers named).symm.trans gateway
      exact absurd (named.trans ((fair here).mpr takes)) apart
    · exact held.unrivaled p inPeers

theorem heldBy_trace {program : Reconciler α} {faulty : Call → Prop} (req : NamespacedName)
    (attached : gatewayKey v = server)
    (run : Trace (clusterEnv faulty) c program events outcome c')
    (fair : ∀ event ∈ events, ∀ write, event.1 = .updatePeerStatus write → OwnWrite c req write ∧
      (req = server → (write.key = v.key ↔ write.status.address = address)))
    (held : HeldBy server v address c.peers) : HeldBy server v address c'.peers := by
  have both := peers_trace
    (fun peers => peers.map (·.object) = c.peers.map (·.object) ∧ HeldBy server v address peers) run
      ?_ ⟨rfl, held⟩
  · exact both.2
  · rintro peers event write member writes ⟨objects, held⟩
    obtain ⟨own, gives⟩ := fair event member write writes
    exact ⟨(Cluster.putStatus_objects peers write).trans objects,
      heldBy_put attached objects own gives held⟩

end Held

section Keeps
variable {c c' : Cluster} {server req : NamespacedName} {v : WireguardPeer} {address : String}
  {publicHalf : Wgtypes.Key → Wgtypes.Key} {faulty : Call → Prop} {spec : Wireguard}
    {range : Ipam.PeerCIDR}

/-- What holds from the pass that lists `v` on. `spec` is the server without its status. -/
structure Keeps (server : NamespacedName) (v : WireguardPeer) (address : String) (spec : Wireguard)
    (c : Cluster) : Prop where
  undisputed : Undisputed server v c
  lists : ∃ state, c.state server = some state ∧
    ∃ entry, rendered entry ∈ state.peers ∧ entry.object = v.object ∧ entry.status.address = address
  serves : (c.wireguards server).map (·.object) = some spec
  held : HeldBy server v address c.peers

theorem Keeps.listsKey (keeps : Keeps server v address spec c) :
    Lists c server v.key v.spec.publicKey := by
  obtain ⟨state, stated, entry, member, object, -⟩ := keeps.lists
  have publicKey : entry.spec.publicKey = v.spec.publicKey := by rw [spec_of_object object]
  have name : entry.key = v.key := key_of_object object
  exact ⟨state, stated, rendered entry, member, name, publicKey⟩

theorem Keeps.listsAt (keeps : Keeps server v address spec c) : ListsAt c server v.key address := by
  obtain ⟨state, stated, entry, member, object, holds⟩ := keeps.lists
  have name : entry.key = v.key := key_of_object object
  exact ⟨state, stated, rendered entry, member, name, holds⟩

theorem mem_related (permuted : List.Perm items c.peers) :
    u ∈ relatedPeers server items ↔ u ∈ c.peers ∧ gatewayKey u = server := by
  rw [relatedPeers, List.mem_filter, permuted.mem_iff, decide_eq_true_eq]

/-- In a pass of the server `v` holds its key, which the state lists it under. -/
theorem incumbent_keyHolder (admits : refusal wg v = none) (keeps : Keeps server v address spec c)
    (found : c.wireguards server = some wg) (permuted : List.Perm items c.peers)
    (member : stored ∈ c.peers) (object : stored.object = v.object) :
    stored ∈ keyHolders wg (c.listed server) (relatedPeers server items) := by
  have distinct := related_distinct permuted server
  have related : stored ∈ relatedPeers server items := by
    refine (mem_related permuted).mpr ⟨member, ?_⟩
    rw [gatewayKey_of_object object, keeps.undisputed.attached.1]
  have competes : stored ∈ admissible wg (relatedPeers server items) :=
    mem_admissible.mpr ⟨related, (refusal_congr wg object).trans admits⟩
  obtain ⟨holder, holding, keyed⟩ :
      ∃ holder ∈ keyHolders wg (c.listed server) (relatedPeers server items),
      holder.spec.publicKey = stored.spec.publicKey := exists_keyHolder distinct competes
  rw [spec_of_object object] at keyed
  have name := keyHolder_is_incumbent keeps.undisputed
    (.inl keeps.listsKey) found permuted holding keyed
  have equal : holder = stored := List.inj_on_of_nodup_map distinct
    (mem_admissible.mp (keyHolders_sublist.subset holding)).1 related
    (name.trans (key_of_object object).symm)
  rw [← equal]
  exact holding

/-- It enters the allocation with its address: whoever else holds that is younger. -/
theorem incumbent_candidate (reads : Ipam.Reads (effectivePeerCIDR4 wg) range)
    (usable : range.Holds address)
    (admits : refusal wg v = none) (keeps : Keeps server v address spec c)
    (found : c.wireguards server = some wg) (permuted : List.Perm items c.peers) :
    ∃ candidate ∈ candidates wg (c.listed server) (relatedPeers server items),
      candidate.object = v.object ∧ candidate.status.address = address := by
  obtain ⟨stored, member, object, holds⟩ := keeps.held.stored
  have distinct := related_distinct permuted server
  have holder := incumbent_keyHolder admits keeps found permuted member object
  have inCleared : stored ∈ cleared wg (c.listed server) (relatedPeers server items) :=
    mem_cleared.mpr ⟨stored, holder, clearUnusable_of_holds reads (holds ▸ usable)⟩
  refine ⟨stored, (mem_candidates distinct).mpr ⟨inCleared, .inr ⟨inCleared, ?_⟩⟩, object, holds⟩
  intro other otherCleared sameAddress
  obtain ⟨u, holding, rfl⟩ := mem_cleared.mp otherCleared
  have shared : (clearUnusable (effectivePeerCIDR4 wg) u).status.address = address :=
    sameAddress.trans holds
  have kept : clearUnusable (effectivePeerCIDR4 wg) u = u := by
    rcases clearUnusable_cases reads u with ⟨-, kept⟩ | ⟨-, empty⟩
    · exact kept
    · exact absurd (shared.symm.trans empty) usable.ne_empty
  rw [kept] at shared ⊢
  obtain ⟨inPeers, ours⟩ :=
    (mem_related permuted).mp (mem_admissible.mp (keyHolders_sublist.subset holding)).1
  by_cases itself : u.key = v.key
  · exact .inl (List.inj_on_of_nodup_map c.distinct inPeers member
      (itself.trans (key_of_object object).symm))
  · have younger := keeps.held.unrivaled u inPeers ours shared itself
    have apart : u.key ≠ stored.key := fun same => itself (same.trans (key_of_object object))
    rcases older_total apart with first | first
    · rw [older_congr rfl object, younger] at first
      contradiction
    · exact .inr first

theorem keeps_pass (reads : Ipam.Reads (effectivePeerCIDR4 spec) range)
    (usable : range.Holds address)
    (admits : refusal spec v = none) (keeps : Keeps server v address spec c)
    (pass : Pass publicHalf faulty req c c') : Keeps server v address spec c' := by
  obtain ⟨others, ours⟩ := pass_state pass
  have undisputed := undisputed_pass keeps.undisputed (fun _ => .inl keeps.listsKey) pass
  obtain ⟨events, outcome, run⟩ := pass
  have specs := trace_sameSpecs run
  obtain ⟨wg, found, same⟩ := Option.map_eq_some_iff.mp keeps.serves
  have object : wg.object = spec.object := by
    rw [← same]
    rfl
  rw [← cidr_of_object object] at reads
  rw [← refusal_of_object object] at admits
  refine ⟨undisputed, ?_, by rw [specs.wireguards, keeps.serves], ?_⟩
  · by_cases here : server = req
    · subst here
      rcases ours with unchanged
        | ⟨found', items, admitted, privateKey, stored, -, permuted, returns, written⟩
      · rw [unchanged]
        exact keeps.lists
      · obtain rfl : found' = wg := Option.some.inj (stored.symm.trans found)
        obtain ⟨candidate, entering, object, holds⟩ :=
          incumbent_candidate reads usable admits keeps found permuted
        obtain ⟨entry, held, object', holds'⟩ :=
          held_of_candidate (related_distinct permuted server) entering (holds ▸ usable.ne_empty)
        refine ⟨_, written, entry, ?_, object'.trans object, holds'.trans holds⟩
        exact mem_desiredState.mpr ⟨entry, returns.2.subset held, rfl⟩
    · rw [others server here]
      exact keeps.lists
  · -- Every write of the pass keeps the address with `v`.
    refine heldBy_trace req keeps.undisputed.attached.1 run ?_ keeps.held
    intro event member write writes
    refine ⟨pass_own_writes run member writes, ?_⟩
    rintro rfl
    obtain ⟨-, items, permuted, origin⟩ := pass_writes found run member writes
    have distinct := related_distinct permuted req
    obtain ⟨candidate, entering, object, holds⟩ :=
      incumbent_candidate reads usable admits keeps found permuted
    have nonempty : candidate.status.address ≠ "" := holds ▸ usable.ne_empty
    rw [← key_of_object object, ← holds]
    rcases origin with planned | ⟨id, served, serving, rfl⟩
    · exact write_address reads distinct entering nonempty planned
    · have gives : served.key = candidate.key ↔ served.status.address = candidate.status.address :=
        served_address reads distinct entering nonempty serving
      exact gives

theorem leaves_spares (leaves : LeavesAlone server v action) : Spares server v action := by
  cases action with
  | editWireguard name spec => exact fun here => absurd here leaves
  | _ => exact leaves

/-- What an action leaves of the peers: those that are there were there before, with
the address they had, or have just been created. -/
theorem act_peers (member : u ∈ (c.act action).peers) :
    u ∈ c.peers ∨ u.status = .empty ∨
      ∃ name spec p, action = .editPeer name spec ∧ p ∈ c.peers ∧ p.key = name ∧
        u = { p with spec := spec, generation := p.generation + 1 } := by
  cases action with
  | createPeer peer =>
    simp only [Cluster.act] at member
    split at member
    · rcases List.mem_cons.mp member with rfl | before
      · exact .inr (.inl rfl)
      · exact .inl before
    · exact .inl member
  | editPeer name spec =>
    obtain ⟨p, before, rfl⟩ := List.mem_map.mp member
    unfold Cluster.editSpec
    split
    · rename_i named
      exact .inr (.inr ⟨name, spec, p, rfl, before, named, rfl⟩)
    · exact .inl before
  | deletePeer name => exact .inl (List.mem_filter.mp member).1
  | createWireguard wg =>
    simp only [Cluster.act] at member
    split at member <;> exact .inl member
  | editWireguard name spec => exact .inl member
  | deleteWireguard name => exact .inl member

theorem keeps_act (nonempty : address ≠ "") (keeps : Keeps server v address spec c)
    (leaves : LeavesAlone server v action) (fair : ¬ BringsElder server v address c action) :
    Keeps server v address spec (c.act action) := by
  obtain ⟨wg, found, same⟩ := Option.map_eq_some_iff.mp keeps.serves
  refine ⟨undisputed_act keeps.undisputed (leaves_spares leaves), ?_, ?_, ?_, ?_⟩
  · rw [state_act (leaves_spares leaves)]
    exact keeps.lists
  · have unedited : ∀ spec, action ≠ .editWireguard server spec := by
      rintro spec rfl
      exact leaves rfl
    have undeleted : action ≠ .deleteWireguard server := by
      rintro rfl
      exact leaves rfl
    rw [act_serves unedited undeleted found, Option.map_some, same]
  · obtain ⟨stored, member, object, holds⟩ := keeps.held.stored
    exact ⟨stored, act_stored (leaves_spares leaves) member (key_of_object object), object, holds⟩
  · intro u member gateway holds apart
    rcases act_peers member with before | created | ⟨name, spec, p, rfl, before, named, rfl⟩
    · exact keeps.held.unrivaled u before gateway holds apart
    · rw [created] at holds
      exact absurd holds.symm nonempty
    · have ages : older { p with spec := spec, generation := p.generation + 1 } v = older p v := rfl
      rw [ages]
      by_contra elder
      exact fair ⟨p, before, named, holds, by simpa using elder, gateway⟩

theorem keeps_history (reads : Ipam.Reads (effectivePeerCIDR4 spec) range)
    (usable : range.Holds address)
    (admits : refusal spec v = none) (keeps : Keeps server v address spec c)
    (run : ReflTransGen (SettledStep publicHalf server v address) c c') :
    Keeps server v address spec c' := by
  induction run with
  | refl => exact keeps
  | tail _ step ih =>
    cases step with
    | pass pass => exact keeps_pass reads usable admits ih pass
    | act leaves fair => exact keeps_act usable.ne_empty ih leaves fair

end Keeps

end TunnelOperator.Controller
