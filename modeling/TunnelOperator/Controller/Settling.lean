import TunnelOperator.Controller.CleanPass
import TunnelOperator.Controller.StateProofs

/-! What one clean pass leaves, whatever it found: each peer it serves is stored ready,
with the gateway identity and an address of its own, each refusal is recorded, and no
other peer holds an address of the range. -/
namespace TunnelOperator.Controller
open Program Resources

section Record
variable {cidr4 : String} {range : Ipam.PeerCIDR}

theorem peerStatusMatches_recorded {peer copy : WireguardPeer} (nr : NotReady)
    (same : copy.generation = peer.generation) :
    peerStatusMatches { peer with status := notReadyStatus copy nr } nr = true := by
  have found := find_setStatusCondition copy.status.conditions
    { type := conditionReady, status := .false, reason := nr.reason, message := nr.conditionMessage
      observedGeneration := copy.generation }
  simp only [peerStatusMatches, notReadyStatus, found]
  simp [same]

/-- A refusal that was written, or needed no write, is recorded. -/
theorem settle_matches (peer : WireguardPeer) (nr : NotReady) :
    peerStatusMatches (settle peer (notReadyWrite peer nr)) nr = true := by
  unfold notReadyWrite
  split
  · rename_i same
    exact same
  · exact peerStatusMatches_recorded nr rfl

/-- A full pool is recorded on the peer as the next pass looks at it. -/
theorem settle_exhausted (cidr4 : String) (peer : WireguardPeer) :
    peerStatusMatches (clearUnusable cidr4
      (settle peer ((Allotment.exhausted (clearUnusable cidr4 peer)).write cidr4)))
        (addressPoolExhausted cidr4) = true := by
  simp only [Allotment.write, notReadyWrite]
  split
  · rename_i same
    exact same
  · have generation := congrArg WireguardPeer.generation (clearUnusable_object cidr4 peer)
    rw [clearUnusable_of_empty rfl]
    exact peerStatusMatches_recorded _ generation

theorem eq_of_object {first second : WireguardPeer} (object : first.object = second.object)
    (status : first.status = second.status) : first = second := by
  have whole : ∀ p : WireguardPeer, { p.object with status := p.status } = p := fun _ => rfl
  rw [← whole first, object, status, whole]

theorem withIdentity_of_carries {id : ServerIdentity}
    (carries : carriesIdentity wg id peer = true) :
    withIdentity wg id peer = peer := by
  simp only [carriesIdentity, Bool.and_eq_true, decide_eq_true_eq] at carries
  obtain ⟨⟨endpoint, publicKey⟩, localCIDRs⟩ := carries
  simp only [withIdentity, ← endpoint, ← publicKey, ← localCIDRs]

theorem carries_withIdentity (wg : Wireguard) (id : ServerIdentity) (peer : WireguardPeer) :
    carriesIdentity wg id (withIdentity wg id peer) = true := by
  simp [carriesIdentity, withIdentity]

end Record

section Settles
variable {wg : Wireguard} {current : ListedKeys} {peers : List WireguardPeer}
  {range : Ipam.PeerCIDR} {id : ServerIdentity}

theorem served_settled (member : served ∈ (plan wg current peers).served) :
    settledReady served = true := by
  obtain ⟨allotment, allotted, serves⟩ := mem_plan_served.mp member
  obtain ⟨candidate, -, used, allots, -⟩ := mem_allotments allotted
  have readied_settled : ∀ peer, settledReady (readied peer) = true := by
    intro peer
    simp [settledReady, readied, find_removeStatusCondition]
  cases allots with
  | exhausted _ _ => contradiction
  | fresh _ _ =>
    obtain rfl := Option.some.inj serves
    exact readied_settled _
  | renewed _ _ =>
    obtain rfl := Option.some.inj serves
    exact readied_settled _
  | unchanged _ settled =>
    obtain rfl := Option.some.inj serves
    exact settled

theorem applyWrites_syncs_absent {admitted : List WireguardPeer}
    (absent : ∀ q ∈ admitted, q.key ≠ peer.key) :
    applyWrites (syncs wg id admitted) peer = peer := by
  apply applyWrites_of_absent
  intro write member
  obtain ⟨q, filtered, rfl⟩ := List.mem_map.mp member
  exact absent q (List.mem_filter.mp filtered).1

/-- After the identity writes every admitted peer carries the identity. -/
theorem applyWrites_syncs {admitted : List WireguardPeer} (distinct : (admitted.map (·.key)).Nodup)
    (member : peer ∈ admitted) :
    applyWrites (syncs wg id admitted) peer = withIdentity wg id peer := by
  by_cases carries : carriesIdentity wg id peer = true
  · rw [withIdentity_of_carries carries]
    apply applyWrites_of_absent
    intro write written same
    obtain ⟨q, filtered, rfl⟩ := List.mem_map.mp written
    obtain ⟨inside, lacks⟩ := List.mem_filter.mp filtered
    have equal : q = peer := List.inj_on_of_nodup_map distinct inside member same
    rw [equal, carries] at lacks
    contradiction
  · have keys : ((syncs wg id admitted).map (·.key)).Nodup := by
      simp only [syncs, List.map_map]
      exact distinct.sublist (List.filter_sublist.map _)
    have written : withIdentity wg id peer ∈ syncs wg id admitted :=
      List.mem_map_of_mem (List.mem_filter.mpr ⟨member, by simpa using carries⟩)
    have named : (withIdentity wg id peer).key = peer.key := rfl
    rw [applyWrites_of_mem keys written named]
    rfl

theorem applyWrites_append (first second : List WireguardPeer) (peer : WireguardPeer) :
    applyWrites (first ++ second) peer = applyWrites second (applyWrites first peer) := by
  simp [applyWrites]

/-- After the pass a peer is stored as it is served, with the gateway identity, or it is
served no more and is stored as the plan left it. -/
theorem pass_settles (current : ListedKeys) (reads : Ipam.Reads (effectivePeerCIDR4 wg) range)
    (distinct : (peers.map (·.key)).Nodup) (id : ServerIdentity) (member : peer ∈ peers) :
    (∃ served ∈ (plan wg current peers).served, served.object = peer.object ∧
      applyWrites (passWrites wg id (plan wg current peers)) peer = withIdentity wg id served) ∨
    ((∀ served ∈ (plan wg current peers).served, served.key ≠ peer.key) ∧
      applyWrites (passWrites wg id (plan wg current peers)) peer =
        applyWrites ((plan wg current peers).writes (effectivePeerCIDR4 wg)) peer ∧
      ¬ range.Holds (applyWrites
        (passWrites wg id (plan wg current peers)) peer).status.address) := by
  have names : ((plan wg current peers).served.map (·.key)).Nodup := served_names distinct current
  have object := applyWrites_object ((plan wg current peers).writes (effectivePeerCIDR4 wg)) peer
  rw [passWrites, applyWrites_append]
  rcases plan_settles current reads distinct member with ⟨served, serving, same, status⟩
    | ⟨absent, vacant⟩
  · refine .inl ⟨served, serving, same, ?_⟩
    rw [eq_of_object (object.trans same.symm) status]
    exact applyWrites_syncs names serving
  · have untouched : applyWrites (syncs wg id (plan wg current peers).served)
        (applyWrites ((plan wg current peers).writes (effectivePeerCIDR4 wg)) peer) =
          applyWrites ((plan wg current peers).writes (effectivePeerCIDR4 wg)) peer := by
      apply applyWrites_syncs_absent
      intro q serving
      rw [key_of_object object]
      exact absent q serving
    exact .inr ⟨absent, untouched, untouched.symm ▸ vacant⟩

end Settles

section Tidy
variable {c c' : Cluster} {req : NamespacedName} {wg : Wireguard} {range : Ipam.PeerCIDR}
  {id : ServerIdentity} {secret : Secret} {items : List WireguardPeer}

/-- A cluster a clean pass has left, in which state.json lists the peers `S`. -/
structure Tidy (req : NamespacedName) (wg : Wireguard) (range : Ipam.PeerCIDR) (id : ServerIdentity)
    (c : Cluster) (S : List WireguardPeer) : Prop where
  stored : ∀ s ∈ S, s ∈ relatedPeers req c.peers ∧ refusal wg s = none
  keys : (S.map (·.spec.publicKey)).Nodup
  addresses : (S.map (·.status.address)).Nodup
  ready : ∀ s ∈ S, range.Holds s.status.address ∧ settledReady s = true ∧
    carriesIdentity wg id s = true
  listed : ∀ u ∈ relatedPeers req c.peers, refusal wg u = none →
    (listed (c.listed req) u = true ↔ u ∈ S)
  vacant : ∀ u ∈ relatedPeers req c.peers, u ∉ S → ¬ range.Holds u.status.address
  refused : ∀ u ∈ relatedPeers req c.peers, ∀ nr, refusal wg u = some nr →
    peerStatusMatches u nr = true

/-- The peers `S` as the pass that served them left them. -/
def synced (wg : Wireguard) (id : ServerIdentity) (p : Plan) : List WireguardPeer :=
  p.served.map (withIdentity wg id)

theorem keptSecret_state (wg : Wireguard) (secret : Secret) (admitted : List WireguardPeer) :
    (keptSecret wg secret admitted).data.stateJSON =
      some (.marshal (desiredState wg (secret.data.privateKey.getD "") admitted)) := by
  unfold keptSecret
  split
  · assumption
  · rfl

/-- The keys listed after a pass are those of the peers it served. -/
theorem listed_passed (passed : Passed req wg secret items c events c') :
    c'.listed req = listedKeys (desiredState wg (secret.data.privateKey.getD "")
      (plan wg (secretKeys secret) (relatedPeers req items)).served).peers := by
  unfold Cluster.listed
  rw [passed.secrets, Function.update_self]
  simp only [secretKeys, keptSecret_state, Option.bind_some, StateText.unmarshal]

theorem mem_related_passed (passed : Passed req wg secret items c events c') :
    u ∈ relatedPeers req c'.peers ↔ ∃ p ∈ relatedPeers req items, applyWrites (passWrites wg
      (identityOf (assigned c wg) secret)
      (plan wg (secretKeys secret) (relatedPeers req items))) p = u := by
  simp only [relatedPeers, passed.peers, List.mem_filter, List.mem_map, decide_eq_true_eq]
  constructor
  · rintro ⟨⟨p, member, rfl⟩, ours⟩
    rw [gatewayKey_of_object (applyWrites_object _ p)] at ours
    exact ⟨p, ⟨passed.permuted.mem_iff.mpr member, ours⟩, rfl⟩
  · rintro ⟨p, ⟨member, ours⟩, rfl⟩
    refine ⟨⟨p, passed.permuted.mem_iff.mp member, rfl⟩, ?_⟩
    rw [gatewayKey_of_object (applyWrites_object _ p)]
    exact ours

/-- What the plan serves is stored, with the gateway identity. -/
theorem synced_stored (reads : Ipam.Reads (effectivePeerCIDR4 wg) range)
    (distinct : (peers.map (·.key)).Nodup) (serving : served ∈ (plan wg current peers).served)
    (id : ServerIdentity) : ∃ peer ∈ peers, served.object = peer.object ∧
      applyWrites (passWrites wg id (plan wg current peers)) peer = withIdentity wg id served := by
  obtain ⟨peer, member, same⟩ := served_object serving
  refine ⟨peer, member, same, ?_⟩
  rcases pass_settles current reads distinct id member with ⟨other, serving', same', settled⟩
    | ⟨absent, -⟩
  · have names : ((plan wg current peers).served.map (·.key)).Nodup := served_names distinct current
    have equal : other = served :=
      List.inj_on_of_nodup_map names serving' serving (key_of_object (same'.trans same.symm))
    rw [settled, equal]
  · exact absurd (key_of_object same) (absent served serving)

theorem served_passes (reads : Ipam.Reads (effectivePeerCIDR4 wg) range)
    (distinct : (peers.map (·.key)).Nodup) (serving : served ∈ (plan wg current peers).served) :
    refusal wg served = none := by
  obtain ⟨holder, holding, same, -⟩ := mem_served reads distinct serving
  rw [refusal_congr wg same]
  exact (mem_admissible.mp (keyHolders_sublist.subset holding)).2

/-- A refusal is recorded once the pass is over. -/
theorem refusal_recorded (reads : Ipam.Reads (effectivePeerCIDR4 wg) range)
    (distinct : (peers.map (·.key)).Nodup)
    (refusing : (peer, nr) ∈ (plan wg current peers).refusals)
    (id : ServerIdentity) :
    peerStatusMatches (applyWrites (passWrites wg id (plan wg current peers)) peer) nr = true := by
  have apart := (List.nodup_append.mp ((fates wg current peers).nodup_iff.mpr distinct)).2.2
  rcases pass_settles current reads distinct id (mem_of_refusal reads distinct refusing) with
    ⟨served, serving, same, -⟩ | ⟨-, settled, -⟩
  · obtain ⟨allotment, allotted, serves⟩ := mem_plan_served.mp serving
    refine absurd ?_ (apart _ (List.mem_map_of_mem refusing) _ (List.mem_map_of_mem allotted))
    rw [allotment_served serves]
    exact (key_of_object same).symm
  · rw [settled, applyWrites_refused distinct refusing]
    exact settle_matches peer nr

theorem listed_synced (passed : Passed req wg secret items c events c')
    (member : u ∈ relatedPeers req items) (passes : refusal wg u = none) :
    listed (c'.listed req) (applyWrites (passWrites wg (identityOf (assigned c wg) secret)
      (plan wg (secretKeys secret) (relatedPeers req items))) u) = true ↔
    ∃ served ∈ (plan wg (secretKeys secret) (relatedPeers req items)).served,
      served.key = u.key := by
  have distinct := related_distinct passed.permuted req
  have object := applyWrites_object (passWrites wg (identityOf (assigned c wg) secret)
    (plan wg (secretKeys secret) (relatedPeers req items))) u
  have canonical := ((refusal_eq_none_iff wg u).mp passes).2
  simp only [listed, decide_eq_true_eq, listed_passed passed, key_of_object object,
    spec_of_object object]
  constructor
  · intro here
    obtain ⟨entry, inside, named, -⟩ := exists_of_listedKeys (here ▸ canonical.ne_empty)
    obtain ⟨served, serving, rfl⟩ := mem_desiredState.mp inside
    exact ⟨served, serving, named⟩
  · rintro ⟨served, serving, named⟩
    have names : ((desiredState wg (secret.data.privateKey.getD "")
        (plan wg (secretKeys secret) (relatedPeers req items)).served).peers.map
          (·.key)).Nodup := by
      refine (((List.perm_insertionSort NotAfter _).map (·.key)).nodup_iff).mpr ?_
      rw [List.map_map]
      exact served_names distinct _
    have entry := listedKeys_of_mem names (mem_desiredState.mpr ⟨served, serving, rfl⟩)
    obtain ⟨origin, inside, same⟩ := served_object serving
    have equal : origin = u :=
      List.inj_on_of_nodup_map distinct inside member ((key_of_object same).symm.trans named)
    rw [← equal, ← spec_of_object same, ← key_of_object same]
    exact entry

theorem tidy_passed (checked : CheckedSpec wg) (reads : Ipam.Reads (effectivePeerCIDR4 wg) range)
    (passed : Passed req wg secret items c events c') :
    Tidy req wg range (identityOf (assigned c wg) secret) c'
      (synced wg (identityOf (assigned c wg) secret)
      (plan wg (secretKeys secret) (relatedPeers req items))) := by
  have distinct := related_distinct passed.permuted req
  constructor
  case stored =>
    intro s member
    obtain ⟨served, serving, rfl⟩ := List.mem_map.mp member
    obtain ⟨peer, inside, -, settled⟩ :=
      synced_stored reads distinct serving (identityOf (assigned c wg) secret)
    refine ⟨(mem_related_passed passed).mpr ⟨peer, inside, settled⟩, ?_⟩
    rw [refusal_congr wg (withIdentity_object wg _ served)]
    exact served_passes reads distinct serving
  case keys =>
    rw [synced, List.map_map]
    exact (served_listable checked distinct).keys
  case addresses =>
    rw [synced, List.map_map]
    exact List.pairwise_map.mpr (served_apart reads distinct)
  case ready =>
    intro s member
    obtain ⟨served, serving, rfl⟩ := List.mem_map.mp member
    obtain ⟨-, -, -, usable, -⟩ := mem_served reads distinct serving
    have settled : settledReady served = true := served_settled serving
    exact ⟨usable, settled, carries_withIdentity _ _ _⟩
  case listed =>
    intro u' member passes
    obtain ⟨u, inside, rfl⟩ := (mem_related_passed passed).mp member
    rw [refusal_congr wg (applyWrites_object _ u)] at passes
    rw [listed_synced passed inside passes]
    constructor
    · rintro ⟨served, serving, named⟩
      obtain ⟨peer, inside', same, settled⟩ :=
        synced_stored reads distinct serving (identityOf (assigned c wg) secret)
      have equal : peer = u :=
        List.inj_on_of_nodup_map distinct inside' inside ((key_of_object same).symm.trans named)
      rw [← equal, settled]
      exact List.mem_map_of_mem serving
    · intro member
      obtain ⟨served, serving, same⟩ := List.mem_map.mp member
      refine ⟨served, serving, ?_⟩
      have named : served.key = (withIdentity wg (identityOf (assigned c wg) secret) served).key :=
        rfl
      rw [named, same, key_of_object (applyWrites_object _ u)]
  case vacant =>
    intro u' member outside
    obtain ⟨u, inside, rfl⟩ := (mem_related_passed passed).mp member
    rcases pass_settles (secretKeys secret) reads distinct
        (identityOf (assigned c wg) secret) inside with
      ⟨served, serving, -, settled⟩ | ⟨-, -, vacant⟩
    · rw [settled] at outside
      exact absurd (List.mem_map_of_mem serving) outside
    · exact vacant
  case refused =>
    intro u' member nr refusing
    obtain ⟨u, inside, rfl⟩ := (mem_related_passed passed).mp member
    rw [refusal_congr wg (applyWrites_object _ u)] at refusing
    exact refusal_recorded reads distinct
      (mem_refusals.mpr (.inl (mem_refused.mpr ⟨inside, refusing⟩))) _

end Tidy
end TunnelOperator.Controller
