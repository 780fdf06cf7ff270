import TunnelOperator.Controller.Allocation

/-! What a plan does about each peer: it refuses the peer for its namespace, its key or
its address, or the allocation decides about it. Each peer meets exactly one of these. -/
namespace TunnelOperator.Controller

section Partition
variable {wg : Wireguard} {current : ListedKeys} {peers : List WireguardPeer} {cidr4 : String}

theorem dedupe_partition (value : WireguardPeer → String)
    (wins : WireguardPeer → WireguardPeer → Bool) (peers : List WireguardPeer) :
    ((dedupe value wins peers).1 ++ (dedupe value wins peers).2.map (·.peer)).Perm peers := by
  have parts := Election.keep_append_losers (disputed value) wins peers
  simpa [dedupe, Function.comp_def] using parts

theorem refused_partition (wg : Wireguard) (peers : List WireguardPeer) :
    (admissible wg peers ++ (refused wg peers).map (·.1)).Perm peers := by
  have refusing : (refused wg peers).map (·.1) =
      peers.filter fun peer => !(refusal wg peer).isNone := by
    unfold refused
    induction peers with
    | nil => rfl
    | cons peer rest ih =>
      cases problem : refusal wg peer with
      | none => simpa [problem] using ih
      | some nr => simpa [problem] using ih
  rw [refusing]
  exact List.filter_append_perm _ _

theorem allot_keys (cidr4 : String) (usedIps4 : List String) (peers : List WireguardPeer) :
    (allot cidr4 usedIps4 peers).map (·.peer.key) = peers.map (·.key) := by
  induction peers generalizing usedIps4 with
  | nil => rfl
  | cons peer rest ih =>
    obtain ⟨allotment, allots, next⟩ := allot_cons cidr4 usedIps4 peer rest
    rw [next, List.map_cons, List.map_cons, ih]
    cases allots <;> rfl

/-- Every peer is refused once or allotted once. -/
theorem fates (wg : Wireguard) (current : ListedKeys) (peers : List WireguardPeer) :
    ((plan wg current peers).refusals.map (·.1.key) ++
      (plan wg current peers).allotments.map (·.peer.key)).Perm (peers.map (·.key)) := by
  have losing : (keyConflicts wg current peers).map (·.1.key) =
      ((dedupePublicKeys (admissible wg peers) current).2.map (·.peer)).map (·.key) := by
    simp [keyConflicts, Function.comp_def]
  have giving : (addressConflicts wg current peers).map (·.1.key) =
      ((dedupeAddresses (cleared wg current peers)).2.map (·.peer)).map (·.key) := by
    simp [addressConflicts, Function.comp_def]
  have refusing : (refused wg peers).map (·.1.key) = ((refused wg peers).map (·.1)).map
      (·.key) := by
    simp [Function.comp_def]
  have byAddress : ((addressConflicts wg current peers).map (·.1.key) ++
      (candidates wg current peers).map (·.key)).Perm
        ((keyHolders wg current peers).map (·.key)) := by
    have keys : (cleared wg current peers).map (·.key) =
        (keyHolders wg current peers).map (·.key) :=
      map_key_of_objects cleared_objects
    rw [← keys, giving, ← List.map_append]
    exact (List.perm_append_comm.trans (dedupe_partition _ _ _)).map _
  have byKey : ((keyConflicts wg current peers).map (·.1.key) ++
      (keyHolders wg current peers).map (·.key)).Perm ((admissible wg peers).map (·.key)) := by
    rw [losing, ← List.map_append]
    exact (List.perm_append_comm.trans (dedupe_partition _ _ _)).map _
  have byCheck : ((refused wg peers).map (·.1.key) ++ (admissible wg peers).map (·.key)).Perm
      (peers.map (·.key)) := by
    rw [refusing, ← List.map_append]
    exact (List.perm_append_comm.trans (refused_partition _ _)).map _
  simp only [plan, allot_keys, List.map_append, List.append_assoc]
  exact ((byAddress.append_left _).trans byKey).append_left _ |>.trans byCheck

theorem notReadyWrite_key (written : notReadyWrite peer nr = some write) :
    write.key = peer.key := by
  rw [notReadyWrite_some written]
  rfl

theorem allotment_write_key {allotment : Allotment} (written : allotment.write cidr4 = some write) :
    write.key = allotment.peer.key := by
  cases allotment with
  | exhausted peer => exact notReadyWrite_key written
  | fresh peer => exact congrArg _ (Option.some.inj written).symm
  | renewed peer => exact congrArg _ (Option.some.inj written).symm
  | unchanged peer => contradiction

theorem filterMap_keys {entries : List α} {name : α → NamespacedName}
    {write : α → Option WireguardPeer}
    (named : ∀ {entry peer}, write entry = some peer → peer.key = name entry) :
    ((entries.filterMap write).map (·.key)).Sublist (entries.map name) := by
  induction entries with
  | nil => simp
  | cons entry rest ih =>
    cases written : write entry with
    | none => simpa [written] using ih.cons _
    | some peer => simpa [written, named written] using ih

theorem writes_keys (wg : Wireguard) (current : ListedKeys) (peers : List WireguardPeer)
    (cidr4 : String) : (((plan wg current peers).writes cidr4).map (·.key)).Sublist
      ((plan wg current peers).refusals.map (·.1.key) ++
        (plan wg current peers).allotments.map (·.peer.key)) := by
  rw [Plan.writes, List.map_append]
  exact (filterMap_keys notReadyWrite_key).append (filterMap_keys allotment_write_key)

/-- A plan writes no peer twice. -/
theorem writes_once (distinct : (peers.map (·.key)).Nodup) (cidr4 : String) :
    (((plan wg current peers).writes cidr4).map (·.key)).Nodup :=
  ((fates wg current peers).nodup_iff.mpr distinct).sublist (writes_keys wg current peers cidr4)

/-- And only peers it is about. -/
theorem write_known (member : write ∈ (plan wg current peers).writes cidr4) :
    ∃ peer ∈ peers, peer.key = write.key := by
  have named := (writes_keys wg current peers cidr4).subset (List.mem_map_of_mem member)
  exact List.mem_map.mp ((fates wg current peers).mem_iff.mp named)

end Partition

section Fate
variable {wg : Wireguard} {current : ListedKeys} {peers : List WireguardPeer}
  {range : Ipam.PeerCIDR} {cidr4 : String} {usedIps4 : List String}

theorem mem_refusals : entry ∈ (plan wg current peers).refusals ↔
    entry ∈ refused wg peers ∨ entry ∈ keyConflicts wg current peers ∨
      entry ∈ addressConflicts wg current peers := by
  simp [plan]

/-- What a refusal is about is the peer as it is stored. -/
theorem mem_of_refusal (reads : Ipam.Reads (effectivePeerCIDR4 wg) range)
    (distinct : (peers.map (·.key)).Nodup)
    (refusing : (peer, nr) ∈ (plan wg current peers).refusals) :
    peer ∈ peers := by
  rcases mem_refusals.mp refusing with here | here | here
  · exact (mem_refused.mp here).1
  · obtain ⟨_, -, member, -⟩ := (mem_keyConflicts distinct).mp here
    exact (mem_admissible.mp member).1
  · obtain ⟨_, -, member, held, -⟩ := (mem_addressConflicts distinct).mp here
    obtain ⟨holder, holding, rfl⟩ := mem_cleared.mp member
    rcases clearUnusable_cases reads holder with ⟨-, kept⟩ | ⟨-, empty⟩
    · rw [kept]
      exact (mem_admissible.mp (keyHolders_sublist.subset holding)).1
    · exact absurd empty held

/-- Every allotment is some peer's, given the addresses used when its turn comes. -/
theorem mem_allot (member : allotment ∈ allot cidr4 usedIps4 peers) :
    ∃ peer ∈ peers, ∃ more, Allots cidr4 (usedIps4 ++ more) peer allotment ∧
      ∀ ip ∈ more, ∃ served ∈ (allot cidr4 usedIps4 peers).filterMap Allotment.served,
        served.status.address = ip := by
  induction peers generalizing usedIps4 with
  | nil => simp [allot] at member
  | cons peer rest ih =>
    obtain ⟨first, allots, next⟩ := allot_cons cidr4 usedIps4 peer rest
    rw [next] at member ⊢
    rcases List.mem_cons.mp member with rfl | later
    · exact ⟨peer, List.mem_cons_self, [], by simpa using allots, by simp⟩
    · obtain ⟨other, inRest, more, allots', used⟩ := ih later
      refine ⟨other, List.mem_cons_of_mem _ inRest, first.taken ++ more,
        by simpa [List.append_assoc] using allots', ?_⟩
      intro ip taken
      rcases List.mem_append.mp taken with mine | theirs
      · cases first with
        | fresh served => exact ⟨served, by simp [Allotment.served], by simpa [Allotment.taken, eq_comm] using mine⟩
        | _ => simp [Allotment.taken] at mine
      · obtain ⟨served, inServed, same⟩ := used ip theirs
        refine ⟨served, ?_, same⟩
        cases serves : first.served with
        | none => rwa [List.filterMap_cons_none serves]
        | some _ =>
          rw [List.filterMap_cons_some serves]
          exact List.mem_cons_of_mem _ inServed

theorem exists_allotment (member : peer ∈ candidates wg current peers) :
    ∃ allotment ∈ (plan wg current peers).allotments, allotment.peer.key = peer.key := by
  have named : peer.key ∈ (plan wg current peers).allotments.map (·.peer.key) := by
    rw [plan, allot_keys]
    exact List.mem_map_of_mem member
  simpa using List.mem_map.mp named

/-- The allotment of a candidate, with what it is decided from. -/
theorem mem_allotments (member : allotment ∈ (plan wg current peers).allotments) :
    ∃ peer ∈ candidates wg current peers, ∃ used,
      Allots (effectivePeerCIDR4 wg) used peer allotment ∧
      allotment.peer.key = peer.key ∧
      (∀ ip ∈ Ipam.getUsedIPs (effectivePeerCIDR4 wg) (candidates wg current peers), ip ∈ used) ∧
      ∀ ip ∈ used, ip ∈ Ipam.getUsedIPs (effectivePeerCIDR4 wg) (candidates wg current peers) ∨
        ∃ served ∈ (plan wg current peers).served, served.status.address = ip := by
  obtain ⟨peer, inside, more, allots, taken⟩ := mem_allot member
  refine ⟨peer, inside, _, allots, ?_, fun ip used => List.mem_append_left _ used, ?_⟩
  · cases allots <;> rfl
  · intro ip used
    rcases List.mem_append.mp used with before | later
    · exact .inl before
    · exact .inr (taken ip later)

theorem candidate_of_key (distinct : (peers.map (·.key)).Nodup)
    (one : first ∈ candidates wg current peers)
    (two : second ∈ candidates wg current peers) (same : first.key = second.key) : first = second :=
  List.inj_on_of_nodup_map
    ((cleared_distinct distinct).sublist (dedupe_keep_sublist.map _)) one two same

/-- A candidate that holds an address keeps it, and no other peer is allotted it. -/
theorem allotment_address (reads : Ipam.Reads (effectivePeerCIDR4 wg) range)
    (distinct : (peers.map (·.key)).Nodup) (holding : holder ∈ candidates wg current peers)
    (held : holder.status.address ≠ "") (member : allotment ∈ (plan wg current peers).allotments) :
    allotment.peer.key = holder.key ↔ allotment.peer.status.address = holder.status.address := by
  obtain ⟨peer, inside, used, allots, named, covers, -⟩ := mem_allotments member
  have reserved : ∀ ip ∈ Ipam.deriveReservedIPs (effectivePeerCIDR4 wg), ip ∈ used :=
    fun ip isReserved => covers ip (Ipam.mem_getUsedIPs.mpr (.inl isReserved))
  have taken : holder.status.address ∈ used :=
    covers _ (Ipam.mem_getUsedIPs.mpr (.inr ⟨held, holder, holding, rfl⟩))
  rw [named]
  -- A candidate without an address is not the holder.
  have other : peer.status.address = "" → peer.key ≠ holder.key := by
    intro empty same
    rw [candidate_of_key distinct inside holding same] at empty
    exact held empty
  have own : peer.status.address ≠ "" →
      (peer.key = holder.key ↔ peer.status.address = holder.status.address) := by
    intro nonempty
    constructor
    · intro same
      rw [candidate_of_key distinct inside holding same]
    · intro same
      rw [candidates_unique distinct inside holding nonempty same]
  cases allots with
  | exhausted empty _ => exact iff_of_false (other empty) fun same => held (same.symm.trans empty)
  | fresh empty free =>
    refine iff_of_false (other empty) fun same => ?_
    rw [← same] at taken
    exact (Ipam.allocateIP_ok reads reserved free).2 taken
  | renewed nonempty _ => exact own nonempty
  | unchanged nonempty _ => exact own nonempty

end Fate
end TunnelOperator.Controller
