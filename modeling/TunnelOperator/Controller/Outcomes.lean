import TunnelOperator.Controller.Effects
import TunnelOperator.Controller.Fates

/-! The peers a pass writes, and the status of each peer once a plan is carried out. -/
namespace TunnelOperator.Controller
open Program Resources

section Objects
variable {wg : Wireguard} {current : ListedKeys} {peers : List WireguardPeer}
  {range : Ipam.PeerCIDR} {cidr4 : String}

theorem allotment_object (member : allotment ∈ (plan wg current peers).allotments) :
    ∃ peer ∈ peers, allotment.peer.object = peer.object := by
  obtain ⟨candidate, inside, used, allots, -⟩ := mem_allotments member
  obtain ⟨holder, holding, rfl⟩ := mem_cleared.mp (dedupe_keep_sublist.subset inside)
  refine ⟨holder, (mem_admissible.mp (keyHolders_sublist.subset holding)).1, ?_⟩
  rw [← clearUnusable_object (effectivePeerCIDR4 wg) holder]
  cases allots <;> rfl

theorem allotment_served {allotment : Allotment} (serves : allotment.served = some peer) :
    allotment.peer = peer := by
  cases allotment with
  | exhausted _ => contradiction
  | fresh _ => exact Option.some.inj serves
  | renewed _ => exact Option.some.inj serves
  | unchanged _ => exact Option.some.inj serves

theorem mem_plan_served : peer ∈ (plan wg current peers).served ↔
    ∃ allotment ∈ (plan wg current peers).allotments, allotment.served = some peer := by
  simp [Plan.served]

theorem mem_writes {p : Plan} : write ∈ p.writes cidr4 ↔
    (∃ peer nr, (peer, nr) ∈ p.refusals ∧ notReadyWrite peer nr = some write) ∨
      ∃ allotment ∈ p.allotments, allotment.write cidr4 = some write := by
  simp [Plan.writes]

/-- What an allotment writes: the peer it is about, with its address. -/
theorem allotment_write {allotment : Allotment} (written : allotment.write cidr4 = some write) :
    (allotment = .exhausted allotment.peer ∧
      write = { allotment.peer with status := notReadyStatus allotment.peer (addressPoolExhausted cidr4) }) ∨
    allotment.served = some write := by
  cases allotment with
  | exhausted peer => exact .inl ⟨rfl, notReadyWrite_some written⟩
  | fresh peer => exact .inr written
  | renewed peer => exact .inr written
  | unchanged peer => contradiction

theorem write_object (reads : Ipam.Reads (effectivePeerCIDR4 wg) range)
    (distinct : (peers.map (·.key)).Nodup) (member : write ∈ (plan wg current peers).writes cidr4) :
    ∃ peer ∈ peers, write.object = peer.object := by
  rcases mem_writes.mp member with ⟨peer, nr, refusing, written⟩ | ⟨allotment, allotted, written⟩
  · refine ⟨peer, mem_of_refusal reads distinct refusing, ?_⟩
    rw [notReadyWrite_some written]
    rfl
  · obtain ⟨peer, inside, same⟩ := allotment_object allotted
    refine ⟨peer, inside, ?_⟩
    rcases allotment_write written with ⟨-, rfl⟩ | serves
    · exact same
    · rw [← allotment_served serves, same]

theorem served_object (member : served ∈ (plan wg current peers).served) :
    ∃ peer ∈ peers, served.object = peer.object := by
  obtain ⟨allotment, allotted, serves⟩ := mem_plan_served.mp member
  rw [← allotment_served serves]
  exact allotment_object allotted

/-- Whoever holds an address going in is written and served with it, and no other peer
is. -/
theorem served_address (reads : Ipam.Reads (effectivePeerCIDR4 wg) range)
    (distinct : (peers.map (·.key)).Nodup) (holding : holder ∈ candidates wg current peers)
    (held : holder.status.address ≠ "") (member : served ∈ (plan wg current peers).served) :
    served.key = holder.key ↔ served.status.address = holder.status.address := by
  obtain ⟨allotment, allotted, serves⟩ := mem_plan_served.mp member
  rw [← allotment_served serves]
  exact allotment_address reads distinct holding held allotted

/-- It is returned with it even when its write is skipped. -/
theorem held_of_candidate (distinct : (peers.map (·.key)).Nodup)
    (holding : holder ∈ candidates wg current peers)
    (held : holder.status.address ≠ "") : ∃ kept ∈ (plan wg current peers).held,
      kept.object = holder.object ∧ kept.status.address = holder.status.address := by
  obtain ⟨allotment, allotted, named⟩ := exists_allotment holding
  obtain ⟨candidate, inside, used, allots, named', -⟩ := mem_allotments allotted
  obtain rfl := candidate_of_key distinct inside holding (named'.symm.trans named)
  have keeping : ∀ {kept}, allotment.held = some kept → kept ∈ (plan wg current peers).held :=
    fun keeps => List.mem_filterMap.mpr ⟨allotment, allotted, keeps⟩
  cases allots with
  | exhausted empty _ => exact absurd empty held
  | fresh empty _ => exact absurd empty held
  | renewed _ _ => exact ⟨_, keeping rfl, rfl, rfl⟩
  | unchanged _ _ => exact ⟨_, keeping rfl, rfl, rfl⟩

theorem write_address (reads : Ipam.Reads (effectivePeerCIDR4 wg) range)
    (distinct : (peers.map (·.key)).Nodup) (holding : holder ∈ candidates wg current peers)
    (held : holder.status.address ≠ "") (member : write ∈ (plan wg current peers).writes cidr4) :
    write.key = holder.key ↔ write.status.address = holder.status.address := by
  rcases mem_writes.mp member with ⟨peer, nr, refusing, written⟩ | ⟨allotment, allotted, written⟩
  · -- A refused peer is not the holder, which is allotted.
    have apart := (List.nodup_append.mp ((fates wg current peers).nodup_iff.mpr distinct)).2.2
    obtain ⟨own, ownAllotted, named⟩ := exists_allotment holding
    rw [notReadyWrite_some written]
    refine iff_of_false ?_ (Ne.symm held)
    intro same
    exact apart _ (List.mem_map_of_mem refusing) _ (List.mem_map_of_mem ownAllotted)
      (same.trans named.symm)
  · have decided := allotment_address reads distinct holding held allotted
    rcases allotment_write written with ⟨full, rfl⟩ | serves
    · obtain ⟨peer, -, used, allots, -⟩ := mem_allotments allotted
      rw [full] at allots
      have empty : allotment.peer.status.address = "" := by
        cases allots with
        | exhausted empty _ => exact empty
      rw [empty] at decided
      exact decided
    · rw [← allotment_served serves]
      exact decided

end Objects

section After
variable {wg : Wireguard} {current : ListedKeys} {peers : List WireguardPeer}
    {range : Ipam.PeerCIDR}

/-- The status a peer keeps or takes. -/
def settle (peer : WireguardPeer) : Option WireguardPeer → WireguardPeer
  | some write => { peer with status := write.status }
  | none => peer

theorem applyWrites_refused (distinct : (peers.map (·.key)).Nodup)
    (refusing : (peer, nr) ∈ (plan wg current peers).refusals) (cidr4 : String) :
    applyWrites ((plan wg current peers).writes cidr4) peer =
      settle peer (notReadyWrite peer nr) := by
  obtain ⟨once, -, apart⟩ := List.nodup_append.mp ((fates wg current peers).nodup_iff.mpr distinct)
  cases written : notReadyWrite peer nr with
  | some write =>
    exact applyWrites_of_mem (writes_once distinct cidr4)
      (mem_writes.mpr (.inl ⟨peer, nr, refusing, written⟩)) (notReadyWrite_key written)
  | none =>
    apply applyWrites_of_absent
    intro write member same
    rcases mem_writes.mp member with ⟨other, nr', refusing', written'⟩
      | ⟨allotment, allotted, written'⟩
    · have equal : (other, nr') = (peer, nr) := List.inj_on_of_nodup_map once refusing' refusing
        ((notReadyWrite_key written').symm.trans same)
      obtain ⟨rfl, rfl⟩ := Prod.mk.inj equal
      rw [written] at written'
      contradiction
    · exact apart _ (List.mem_map_of_mem refusing) _ (List.mem_map_of_mem allotted)
        (same.symm.trans (allotment_write_key written'))

theorem applyWrites_allotted (distinct : (peers.map (·.key)).Nodup)
    (allotted : allotment ∈ (plan wg current peers).allotments)
    (named : allotment.peer.key = peer.key)
    (cidr4 : String) :
    applyWrites ((plan wg current peers).writes cidr4) peer =
      settle peer (allotment.write cidr4) := by
  obtain ⟨-, once, apart⟩ := List.nodup_append.mp ((fates wg current peers).nodup_iff.mpr distinct)
  cases written : allotment.write cidr4 with
  | some write =>
    exact applyWrites_of_mem (writes_once distinct cidr4)
      (mem_writes.mpr (.inr ⟨allotment, allotted, written⟩))
      ((allotment_write_key written).trans named)
  | none =>
    apply applyWrites_of_absent
    intro write member same
    rcases mem_writes.mp member with ⟨other, nr, refusing, written'⟩
      | ⟨allotment', allotted', written'⟩
    · exact apart _ (List.mem_map_of_mem refusing) _ (List.mem_map_of_mem allotted)
        ((notReadyWrite_key written').symm.trans (same.trans named.symm))
    · obtain rfl : allotment' = allotment := List.inj_on_of_nodup_map once allotted' allotted
        ((allotment_write_key written').symm.trans (same.trans named.symm))
      rw [written] at written'
      contradiction

theorem matches_address (same : peerStatusMatches peer nr = true) : peer.status.address = "" := by
  unfold peerStatusMatches at same
  split at same
  · contradiction
  · simp only [Bool.and_eq_true, decide_eq_true_eq] at same
    tauto

/-- A refused peer has given its address up. -/
theorem settle_refused (peer : WireguardPeer) (nr : NotReady) :
    (settle peer (notReadyWrite peer nr)).status.address = "" := by
  unfold notReadyWrite
  split
  · rename_i same
    exact matches_address same
  · rfl

/-- The peer of an allotment, as the plan found it. -/
theorem allotment_origin (distinct : (peers.map (·.key)).Nodup) (member : peer ∈ peers)
    (allotted : allotment ∈ (plan wg current peers).allotments)
    (named : allotment.peer.key = peer.key) :
    peer ∈ keyHolders wg current peers ∧
      clearUnusable (effectivePeerCIDR4 wg) peer ∈ candidates wg current peers ∧
      ∃ used, Allots (effectivePeerCIDR4 wg) used
        (clearUnusable (effectivePeerCIDR4 wg) peer) allotment := by
  obtain ⟨candidate, inside, used, allots, named', -⟩ := mem_allotments allotted
  obtain ⟨holder, holding, rfl⟩ := mem_cleared.mp (dedupe_keep_sublist.subset inside)
  have stored := (mem_admissible.mp (keyHolders_sublist.subset holding)).1
  have same : holder = peer := by
    refine List.inj_on_of_nodup_map distinct stored member ?_
    rw [← named, named', key_of_object (clearUnusable_object _ holder)]
  subst same
  exact ⟨holding, inside, used, allots⟩

theorem exists_fate (member : peer ∈ peers) :
    (∃ entry ∈ (plan wg current peers).refusals, entry.1.key = peer.key) ∨
      ∃ allotment ∈ (plan wg current peers).allotments, allotment.peer.key = peer.key := by
  have whole := (fates wg current peers).mem_iff.mpr (List.mem_map_of_mem member)
  simpa only [List.mem_append, List.mem_map] using whole

/-- Once the plan is carried out, a peer it serves is stored as it is served, and no
other peer holds an address of the range. -/
theorem plan_settles (current : ListedKeys) (reads : Ipam.Reads (effectivePeerCIDR4 wg) range)
    (distinct : (peers.map (·.key)).Nodup) (member : peer ∈ peers) :
    (∃ served ∈ (plan wg current peers).served, served.object = peer.object ∧
      (applyWrites ((plan wg current peers).writes (effectivePeerCIDR4 wg)) peer).status =
        served.status) ∨
    ((∀ served ∈ (plan wg current peers).served, served.key ≠ peer.key) ∧ ¬ range.Holds
      (applyWrites ((plan wg current peers).writes (effectivePeerCIDR4 wg))
        peer).status.address) := by
  obtain ⟨-, once, apart⟩ := List.nodup_append.mp ((fates wg current peers).nodup_iff.mpr distinct)
  rcases exists_fate member with ⟨⟨other, nr⟩, refusing, named⟩ | ⟨allotment, allotted, named⟩
  · obtain rfl : other = peer :=
      List.inj_on_of_nodup_map distinct (mem_of_refusal reads distinct refusing) member named
    refine .inr ⟨?_, ?_⟩
    · intro served inside same
      obtain ⟨allotment, allotted, serves⟩ := mem_plan_served.mp inside
      refine apart _ (List.mem_map_of_mem refusing) _ (List.mem_map_of_mem allotted) ?_
      rw [allotment_served serves, same]
    · rw [applyWrites_refused distinct refusing, settle_refused]
      exact fun holds => holds.ne_empty rfl
  · obtain ⟨-, -, used, allots⟩ := allotment_origin distinct member allotted named
    rw [applyWrites_allotted distinct allotted named]
    have serving : ∀ {served}, allotment.served = some served →
        served ∈ (plan wg current peers).served :=
      fun serves => mem_plan_served.mpr ⟨allotment, allotted, serves⟩
    have object : (clearUnusable (effectivePeerCIDR4 wg) peer).object = peer.object :=
      clearUnusable_object _ peer
    cases allots with
    | exhausted empty full =>
      refine .inr ⟨?_, ?_⟩
      · intro served inside same
        obtain ⟨allotment', allotted', serves⟩ := mem_plan_served.mp inside
        have equal := List.inj_on_of_nodup_map once allotted' allotted
          ((congrArg _ (allotment_served serves)).trans (same.trans named.symm))
        subst equal
        contradiction
      · simp only [Allotment.write, notReadyWrite]
        split
        · intro holds
          have kept : clearUnusable (effectivePeerCIDR4 wg) peer = peer :=
            clearUnusable_of_holds reads holds
          rw [kept] at empty
          exact holds.ne_empty empty
        · exact fun holds => holds.ne_empty rfl
    | fresh _ _ => exact .inl ⟨_, serving rfl, object, rfl⟩
    | renewed _ _ => exact .inl ⟨_, serving rfl, object, rfl⟩
    | unchanged held _ =>
      refine .inl ⟨_, serving rfl, object, ?_⟩
      rcases clearUnusable_cases reads peer with ⟨-, kept⟩ | ⟨-, empty⟩
      · rw [kept]
        rfl
      · exact absurd empty held

end After

section Pass
variable {c c' : Cluster} {faulty : Call → Prop} {publicHalf : Wgtypes.Key → Wgtypes.Key}

/-- A plan for the stored peers, carried out while every status write succeeds. -/
theorem execute_plan (reliable : Reliable faulty) (reads : Ipam.Reads (effectivePeerCIDR4 wg) range)
    (permuted : List.Perm items c.peers)
    (run : Trace (clusterEnv faulty) c (execute (effectivePeerCIDR4 wg)
      (plan wg current (relatedPeers req items))) events outcome c') (whole : outcome ≠ .cut) :
    outcome = .done (plan wg current (relatedPeers req items)).served ∧
      c' = c.applyAll ((plan wg current (relatedPeers req items)).writes (effectivePeerCIDR4 wg)) ∧
      events = ((plan wg current (relatedPeers req items)).writes (effectivePeerCIDR4 wg)).map
        landed := by
  have inside : ∀ {peer}, peer ∈ relatedPeers req items → peer ∈ c.peers :=
    fun member => permuted.mem_iff.mp (List.mem_filter.mp member).1
  apply execute_reliable reliable _ _ run whole
  · intro entry refusing
    exact ⟨entry.1, inside (mem_of_refusal reads (related_distinct permuted req) refusing), rfl⟩
  · intro allotment allotted
    obtain ⟨peer, member, same⟩ := allotment_object allotted
    exact ⟨peer, inside member, (key_of_object same).symm⟩

/-- The peer writes of the stage that serves: the gateway identity on what was admitted. -/
def SyncsIdentity (wg : Wireguard) (admitted : List WireguardPeer) : Call → Prop
  | .updatePeerStatus write => ∃ id, ∃ peer ∈ admitted, write = withIdentity wg id peer
  | _ => True

theorem permits_syncsIdentity (wg : Wireguard) (admitted : List WireguardPeer) :
    Permits (SyncsIdentity wg admitted) := by
  constructor <;> intros <;> trivial

theorem serve_writes (run : Trace (clusterEnv faulty) c
    (serve publicHalf wg svc admitted) events outcome c') :
    ∀ event ∈ events, SyncsIdentity wg admitted event.1 := by
  have safe : (serve publicHalf wg svc admitted).Safe (fun _ _ => True)
      (SyncsIdentity wg admitted) fun _ => True :=
    serve_safe (permits_syncsIdentity wg admitted) publicHalf wg svc admitted
      (fun _ _ peer member => ⟨_, peer, member, rfl⟩) (fun _ _ => trivial) fun _ => trivial
  exact (run.safe_of_expected safe fun _ => trivial).1

/-- The peer writes of a pass for a stored Wireguard: those of a plan for what the pass
found, and the gateway identity on what that plan serves. -/
theorem pass_writes (stored : c.wireguards req = some found)
    (run : Trace (clusterEnv faulty) c (reconcile publicHalf req) events outcome c')
    (member : event ∈ events) (writes : event.1 = .updatePeerStatus write) :
    CheckedSpec found ∧ ∃ items, List.Perm items c.peers ∧
      (write ∈ (plan found (c.listed req) (relatedPeers req items)).writes
        (effectivePeerCIDR4 found) ∨
        ∃ id, ∃ served ∈ (plan found (c.listed req) (relatedPeers req items)).served,
          write = withIdentity found id served) := by
  have quietly : ∀ {calls : List (Event Call Answer)}, (∀ event ∈ calls, Quiet event.1) →
      event ∉ calls := by
    intro calls quiet inside
    have silent := quiet event inside
    rw [writes] at silent
    exact silent
  have planned : ∀ {items : List WireguardPeer} {d e calls ended},
      Trace (clusterEnv faulty) d (execute (effectivePeerCIDR4 found)
        (plan found (c.listed req) (relatedPeers req items))) calls ended e → event ∈ calls →
      write ∈ (plan found (c.listed req) (relatedPeers req items)).writes
        (effectivePeerCIDR4 found) := by
    intro items d e calls ended carried inside
    obtain ⟨peer, member, same⟩ := (execute_trace carried).2.1 event inside
    rw [writes] at same
    rw [Call.updatePeerStatus.inj same]
    exact member
  cases pass_shape stored run with
  | early _ quiet => exact absurd member (quietly quiet)
  | stopped wg svc items d same renders permuted _ quiet carried _ _ =>
    refine ⟨renders.checked same, items, permuted, .inl ?_⟩
    exact planned carried ((List.mem_append.mp member).resolve_left (quietly quiet))
  | served wg svc items d e admitted same renders permuted _ quiet carried serving =>
    refine ⟨renders.checked same, items, permuted, ?_⟩
    rcases List.mem_append.mp member with earlier | later
    · exact .inl (planned carried ((List.mem_append.mp earlier).resolve_left (quietly quiet)))
    · have syncs := serve_writes serving event later
      rw [writes] at syncs
      obtain ⟨id, peer, returned, rfl⟩ := syncs
      refine .inr ⟨id, peer, ((execute_trace carried).2.2 admitted rfl).1.subset returned, ?_⟩
      have identities : ∀ w : Wireguard, withIdentity w.object id peer = withIdentity w id peer :=
        fun _ => rfl
      rw [← identities, same, identities]

/-- A pass writes the peers of its own server only. -/
theorem pass_own_writes (run : Trace (clusterEnv faulty) c
    (reconcile publicHalf req) events outcome c')
    (member : event ∈ events) (writes : event.1 = .updatePeerStatus write) :
    OwnWrite c req write := by
  cases stored : c.wireguards req with
  | none =>
    rcases (missing_trace stored run).2 event member with quiet | ⟨own, isOwn, same⟩
    · rw [writes] at quiet
      exact quiet.elim
    · rw [writes] at same
      rw [Call.updatePeerStatus.inj same]
      exact isOwn
  | some found =>
    obtain ⟨checked, items, permuted, origin⟩ := pass_writes stored run member writes
    obtain ⟨range, reads⟩ := checked.range
    have distinct := related_distinct permuted req
    have related : ∃ peer ∈ relatedPeers req items, write.object = peer.object := by
      rcases origin with planned | ⟨id, served, member, rfl⟩
      · exact write_object reads distinct planned
      · rw [withIdentity_object]
        exact served_object member
    obtain ⟨peer, inside, same⟩ := related
    obtain ⟨inItems, ours⟩ := List.mem_filter.mp inside
    exact ⟨peer, permuted.mem_iff.mp inItems, by simpa using ours, same⟩

/-- What every peer write of a run keeps, the run keeps. -/
theorem peers_trace {program : Reconciler α} (holds : List WireguardPeer → Prop)
    (run : Trace (clusterEnv faulty) c program events outcome c')
    (step : ∀ {peers event write}, event ∈ events → event.1 = .updatePeerStatus write →
      holds peers →
      holds (Cluster.putStatus peers write)) (initial : holds c.peers) : holds c'.peers := by
  induction run with
  | done | fail | cut => exact initial
  | @call s request next answer t events outcome u answered rest ih =>
    refine ih (fun member => step (List.mem_cons_of_mem _ member)) ?_
    cases effect_of_env answered with
    | none => exact initial
    | peerStatus => exact step List.mem_cons_self rfl initial
    | wireguardStatus => exact initial
    | created _ => exact initial
    | updated _ => exact initial

end Pass
end TunnelOperator.Controller
