import TunnelOperator.Controller.Holders
import TunnelOperator.Controller.PlanProofs

/-! The addresses of a pass: which peers enter the allocation with an address, and what
the loop of allocatePeers makes of them. -/
namespace TunnelOperator.Controller
open Netip

section Object
variable {first second : WireguardPeer}

theorem key_of_object (same : first.object = second.object) : first.key = second.key := by
  have names := congrArg WireguardPeer.name same
  have spaces := congrArg WireguardPeer.nameSpace same
  simp only [WireguardPeer.object] at names spaces
  simp [WireguardPeer.key, names, spaces]

theorem spec_of_object (same : first.object = second.object) : first.spec = second.spec :=
  show first.object.spec = second.object.spec from congrArg _ same

@[simp] theorem object_object (peer : WireguardPeer) : peer.object.object = peer.object := rfl

@[simp] theorem readied_object (peer : WireguardPeer) : (readied peer).object = peer.object := rfl

@[simp] theorem withAddress_object (peer : WireguardPeer) (ip : String) :
    (withAddress peer ip).object = peer.object := rfl

@[simp] theorem withIdentity_object (wg : Wireguard) (id : ServerIdentity) (peer : WireguardPeer) :
    (withIdentity wg id peer).object = peer.object := rfl

@[simp] theorem readied_address (peer : WireguardPeer) :
    (readied peer).status.address = peer.status.address := rfl

@[simp] theorem withAddress_address (peer : WireguardPeer) (ip : String) :
    (withAddress peer ip).status.address = ip := rfl

theorem refusal_object (wg : Wireguard) (peer : WireguardPeer) :
    refusal wg peer.object = refusal wg peer := rfl

theorem refusal_congr (wg : Wireguard) (same : first.object = second.object) :
    refusal wg first = refusal wg second := by
  rw [← refusal_object, same, refusal_object]

theorem older_congr {first' second' : WireguardPeer} (one : first.object = first'.object)
    (two : second.object = second'.object) : older first second = older first' second' := by
  have objects : ∀ a b : WireguardPeer, older a.object b.object = older a b := fun _ _ => rfl
  rw [← objects, one, two, objects]

theorem notReadyWrite_some (written : notReadyWrite peer nr = some write) :
    write = { peer with status := notReadyStatus peer nr } := by
  unfold notReadyWrite at written
  split at written
  · contradiction
  · exact (Option.some.inj written).symm

end Object

section Usable
variable {cidr4 : String} {range : Ipam.PeerCIDR}

@[simp] theorem clearUnusable_object (cidr4 : String) (peer : WireguardPeer) :
    (clearUnusable cidr4 peer).object = peer.object := by
  unfold clearUnusable
  split <;> rfl

theorem clearUnusable_of_holds (reads : Ipam.Reads cidr4 range)
    (held : range.Holds peer.status.address) :
    clearUnusable cidr4 peer = peer := by
  unfold clearUnusable
  rw [if_neg]
  simp [(addressUsable_iff reads).mpr held]

theorem clearUnusable_of_empty (empty : peer.status.address = "") :
    clearUnusable cidr4 peer = peer := by
  simp [clearUnusable, empty]

/-- After the clearing every address is one the allocator could have handed out. -/
theorem clearUnusable_cases (reads : Ipam.Reads cidr4 range) (peer : WireguardPeer) :
    (range.Holds peer.status.address ∧ clearUnusable cidr4 peer = peer) ∨
      (¬ range.Holds peer.status.address ∧ (clearUnusable cidr4 peer).status.address = "") := by
  by_cases held : range.Holds peer.status.address
  · exact .inl ⟨held, clearUnusable_of_holds reads held⟩
  · refine .inr ⟨held, ?_⟩
    rw [← addressUsable_iff reads] at held
    unfold clearUnusable
    split
    · rfl
    · rename_i kept
      simpa [held] using kept

theorem clearUnusable_usable (held : (clearUnusable cidr4 peer).status.address ≠ "") :
    clearUnusable cidr4 peer = peer ∧ addressUsable peer.status.address cidr4 = true := by
  unfold clearUnusable at held ⊢
  split at held
  · contradiction
  · rename_i kept
    rw [if_neg kept]
    refine ⟨rfl, ?_⟩
    cases usable : addressUsable peer.status.address cidr4 with
    | true => rfl
    | false => exact absurd ⟨held, by rw [usable]; rfl⟩ kept

theorem clearUnusable_of_usable (usable : addressUsable peer.status.address cidr4 = true) :
    clearUnusable cidr4 peer = peer := by
  unfold clearUnusable
  exact if_neg fun ⟨_, unusable⟩ => by rw [usable] at unusable; contradiction

theorem addressUsable_empty (cidr4 : String) : addressUsable "" cidr4 = false := by
  rw [addressUsable, show Netip.parseAddr "" = .error _ from by rfl]

end Usable

section Candidates
variable {wg : Wireguard} {current : ListedKeys} {peers : List WireguardPeer}
    {range : Ipam.PeerCIDR}

theorem cleared_objects : (cleared wg current peers).map (·.object) =
    (keyHolders wg current peers).map (·.object) := by
  simp [cleared, Function.comp_def]

theorem map_key_of_objects {first second : List WireguardPeer}
    (same : first.map (·.object) = second.map (·.object)) :
    first.map (·.key) = second.map (·.key) := by
  have keys : ∀ items : List WireguardPeer, items.map (·.key) = (items.map (·.object)).map
      (·.key) := by
    intro items
    simp only [List.map_map]
    rfl
  rw [keys, same, ← keys]

theorem cleared_distinct (distinct : (peers.map (·.key)).Nodup) :
    ((cleared wg current peers).map (·.key)).Nodup := by
  rw [map_key_of_objects cleared_objects]
  exact distinct.sublist ((keyHolders_sublist.trans List.filter_sublist).map _)

theorem mem_cleared : peer ∈ cleared wg current peers ↔
    ∃ holder ∈ keyHolders wg current peers,
      clearUnusable (effectivePeerCIDR4 wg) holder = peer := by
  simp [cleared]

theorem mem_candidates (distinct : (peers.map (·.key)).Nodup) :
    peer ∈ candidates wg current peers ↔ peer ∈ cleared wg current peers ∧
      (peer.status.address = "" ∨
        Holder (·.status.address) older (cleared wg current peers) peer) :=
  mem_dedupe_keep (ranks_older (cleared_distinct distinct))

theorem mem_addressConflicts (distinct : (peers.map (·.key)).Nodup) :
    (peer, nr) ∈ addressConflicts wg current peers ↔ ∃ holder ∈ candidates wg current peers,
      peer ∈ cleared wg current peers ∧ peer.status.address ≠ "" ∧
        holder.status.address = peer.status.address ∧ holder ≠ peer ∧
          nr = addressConflict peer.status.address holder.key.string := by
  unfold addressConflicts dedupeAddresses
  simp only [List.mem_map, Prod.mk.injEq, mem_candidates distinct,
    mem_dedupe_losers (ranks_older (cleared_distinct distinct))]
  constructor
  · rintro ⟨_, ⟨p, holder, rfl, member, held, same, ne, holds⟩, rfl, rfl⟩
    exact ⟨holder, ⟨holds.1, .inr holds⟩, member, held, same, ne, rfl⟩
  · rintro ⟨holder, ⟨-, empty | holds⟩, member, held, same, ne, rfl⟩
    · exact absurd (same.symm.trans empty) held
    · exact ⟨_, ⟨peer, holder, rfl, member, held, same, ne, holds⟩, rfl, rfl⟩

/-- No two candidates hold one address. -/
theorem candidates_unique (distinct : (peers.map (·.key)).Nodup)
    (one : first ∈ candidates wg current peers)
    (two : second ∈ candidates wg current peers) (held : first.status.address ≠ "")
    (same : first.status.address = second.status.address) : first = second := by
  have holds := ((mem_candidates distinct).mp one).2.resolve_left held
  have holds' := ((mem_candidates distinct).mp two).2.resolve_left (same ▸ held)
  exact holds.unique (ranks_older (cleared_distinct distinct)) held holds' same

/-- What the allocation loop starts from: distinct peers, each without an address or
with one of the range that no other of them holds. -/
structure Roster (range : Ipam.PeerCIDR) (peers : List WireguardPeer) : Prop where
  keys : (peers.map (·.key)).Nodup
  holds : ∀ peer ∈ peers, peer.status.address = "" ∨ range.Holds peer.status.address
  apart : peers.Pairwise fun p q => p.status.address = q.status.address → p.status.address = ""

theorem candidates_roster (reads : Ipam.Reads (effectivePeerCIDR4 wg) range)
    (distinct : (peers.map (·.key)).Nodup) : Roster range (candidates wg current peers) := by
  have keys : ((candidates wg current peers).map (·.key)).Nodup :=
    (cleared_distinct distinct).sublist (dedupe_keep_sublist.map _)
  refine ⟨keys, ?_, ?_⟩
  · intro peer member
    obtain ⟨holder, -, rfl⟩ := mem_cleared.mp ((mem_candidates distinct).mp member).1
    rcases clearUnusable_cases reads holder with ⟨held, same⟩ | ⟨-, empty⟩
    · exact .inr (same.symm ▸ held)
    · exact .inl empty
  · refine (List.pairwise_map.mp keys).imp_of_mem ?_
    intro p q pMember qMember apart same
    by_contra held
    exact apart (congrArg _ (candidates_unique distinct pMember qMember held same))

end Candidates

section Loop
variable {cidr4 : String} {range : Ipam.PeerCIDR} {peers : List WireguardPeer}
    {usedIps4 : List String}

/-- The allotment of one peer, given the addresses used when its turn comes. -/
inductive Allots (cidr4 : String) (used : List String) (peer : WireguardPeer) :
    Allotment → Prop where
  | exhausted : peer.status.address = "" → Ipam.allocateIP cidr4 used = .error message →
      Allots cidr4 used peer (.exhausted peer)
  | fresh : peer.status.address = "" → Ipam.allocateIP cidr4 used = .ok ip →
      Allots cidr4 used peer (.fresh (readied (withAddress peer ip)))
  | renewed : peer.status.address ≠ "" → settledReady peer = false →
      Allots cidr4 used peer (.renewed (readied peer))
  | unchanged : peer.status.address ≠ "" → settledReady peer = true →
      Allots cidr4 used peer (.unchanged peer)

/-- The address an allotment adds to the used ones. -/
def Allotment.taken : Allotment → List String
  | .fresh peer => [peer.status.address]
  | _ => []

theorem allot_cons (cidr4 : String) (usedIps4 : List String) (peer : WireguardPeer)
    (rest : List WireguardPeer) :
    ∃ allotment, Allots cidr4 usedIps4 peer allotment ∧
      allot cidr4 usedIps4 (peer :: rest) = allotment :: allot cidr4
        (usedIps4 ++ allotment.taken) rest := by
  rw [allot]
  split
  · rename_i empty
    cases allocated : Ipam.allocateIP cidr4 usedIps4 with
    | error message => exact ⟨_, .exhausted empty allocated, by simp [Allotment.taken]⟩
    | ok ip => exact ⟨_, .fresh empty allocated, by simp [Allotment.taken]⟩
  · rename_i held
    split
    · rename_i settled
      exact ⟨_, .unchanged held settled, by simp [Allotment.taken]⟩
    · rename_i unsettled
      exact ⟨_, .renewed held (by simpa using unsettled), by simp [Allotment.taken]⟩

/-- The peer an allotment serves is the peer at hand, with its own address or with the
one just handed out. -/
theorem Allots.served_cases (allots : Allots cidr4 usedIps4 peer allotment) :
    (allotment = .exhausted peer ∧ peer.status.address = "" ∧
      ∃ message, Ipam.allocateIP cidr4 usedIps4 = .error message) ∨
    ∃ served, allotment.served = some served ∧ served.object = peer.object ∧
      ((peer.status.address ≠ "" ∧ served.status.address = peer.status.address ∧
        allotment.taken = []) ∨
        (peer.status.address = "" ∧ Ipam.allocateIP cidr4 usedIps4 = .ok served.status.address ∧
          allotment.taken = [served.status.address])) := by
  cases allots with
  | exhausted empty full => exact .inl ⟨rfl, empty, _, full⟩
  | fresh empty free => exact .inr ⟨_, rfl, rfl, .inr ⟨empty, free, rfl⟩⟩
  | renewed held _ => exact .inr ⟨_, rfl, rfl, .inl ⟨held, rfl, rfl⟩⟩
  | unchanged held _ => exact .inr ⟨_, rfl, rfl, .inl ⟨held, rfl, rfl⟩⟩

theorem allot_objects (cidr4 : String) (usedIps4 : List String) (peers : List WireguardPeer) :
    (((allot cidr4 usedIps4 peers).filterMap Allotment.served).map (·.object)).Sublist
      (peers.map (·.object)) := by
  induction peers generalizing usedIps4 with
  | nil => simp [allot]
  | cons peer rest ih =>
    obtain ⟨allotment, allots, next⟩ := allot_cons cidr4 usedIps4 peer rest
    rw [next]
    rcases allots.served_cases with ⟨rfl, -⟩ | ⟨served, serves, same, -⟩
    · rw [List.filterMap_cons_none rfl]
      exact (ih _).cons _
    · rw [List.filterMap_cons_some serves, List.map_cons, List.map_cons, same]
      exact (ih _).cons_cons _

/-- The used addresses as the loop needs them: the reserved two and every address a
peer still to come holds. -/
structure Covers (cidr4 : String) (used : List String) (peers : List WireguardPeer) : Prop where
  reserved : ∀ ip ∈ Ipam.deriveReservedIPs cidr4, ip ∈ used
  held : ∀ peer ∈ peers, peer.status.address ≠ "" → peer.status.address ∈ used

theorem Covers.tail (covers : Covers cidr4 used (peer :: rest)) (more : List String) :
    Covers cidr4 (used ++ more) rest where
  reserved ip member := List.mem_append_left _ (covers.reserved ip member)
  held p member nonempty :=
    List.mem_append_left _ (covers.held p (List.mem_cons_of_mem _ member) nonempty)

theorem covers_getUsedIPs (cidr4 : String) (peers : List WireguardPeer) :
    Covers cidr4 (Ipam.getUsedIPs cidr4 peers) peers where
  reserved _ member := Ipam.mem_getUsedIPs.mpr (.inl member)
  held peer member nonempty := Ipam.mem_getUsedIPs.mpr (.inr ⟨nonempty, peer, member, rfl⟩)

/-- Where a served address comes from: the peer had it, or it is new. -/
theorem mem_served_allot (reads : Ipam.Reads cidr4 range) (covers : Covers cidr4 usedIps4 peers)
    (member : served ∈ (allot cidr4 usedIps4 peers).filterMap Allotment.served) :
    ∃ peer ∈ peers, served.object = peer.object ∧
      ((peer.status.address ≠ "" ∧ served.status.address = peer.status.address) ∨
        (peer.status.address = "" ∧ range.Holds served.status.address ∧
          served.status.address ∉ usedIps4)) := by
  induction peers generalizing usedIps4 with
  | nil => simp [allot] at member
  | cons peer rest ih =>
    obtain ⟨allotment, allots, next⟩ := allot_cons cidr4 usedIps4 peer rest
    have later : served ∈ (allot cidr4 (usedIps4 ++ allotment.taken) rest).filterMap
        Allotment.served →
        ∃ peer' ∈ peer :: rest, served.object = peer'.object ∧
          ((peer'.status.address ≠ "" ∧ served.status.address = peer'.status.address) ∨
            (peer'.status.address = "" ∧ range.Holds served.status.address ∧
              served.status.address ∉ usedIps4)) := by
      intro member
      obtain ⟨origin, inRest, same, cases_⟩ := ih (covers.tail _) member
      refine ⟨origin, List.mem_cons_of_mem _ inRest, same, cases_.imp_right ?_⟩
      rintro ⟨empty, holds, new⟩
      exact ⟨empty, holds, fun old => new (List.mem_append_left _ old)⟩
    rw [next] at member
    rcases allots.served_cases with ⟨rfl, -⟩ | ⟨first, serves, same, origin⟩
    · rw [List.filterMap_cons_none rfl] at member
      exact later member
    · rw [List.filterMap_cons_some serves] at member
      rcases List.mem_cons.mp member with rfl | inRest
      · refine ⟨peer, List.mem_cons_self, same, ?_⟩
        rcases origin with ⟨held, kept, -⟩ | ⟨empty, free, -⟩
        · exact .inl ⟨held, kept⟩
        · exact .inr ⟨empty, Ipam.allocateIP_ok reads covers.reserved free⟩
      · exact later inRest

/-- No two peers are served one address. -/
theorem allot_apart (reads : Ipam.Reads cidr4 range) (covers : Covers cidr4 usedIps4 peers)
    (apart : peers.Pairwise fun p q => p.status.address = q.status.address →
      p.status.address = "") :
    ((allot cidr4 usedIps4 peers).filterMap Allotment.served).Pairwise
      fun p q => p.status.address ≠ q.status.address := by
  induction peers generalizing usedIps4 with
  | nil => simp [allot]
  | cons peer rest ih =>
    obtain ⟨allotment, allots, next⟩ := allot_cons cidr4 usedIps4 peer rest
    obtain ⟨ahead, apart⟩ := List.pairwise_cons.mp apart
    have others := ih (covers.tail allotment.taken) apart
    rw [next]
    rcases allots.served_cases with ⟨rfl, -⟩ | ⟨first, serves, -, origin⟩
    · rwa [List.filterMap_cons_none rfl]
    · rw [List.filterMap_cons_some serves, List.pairwise_cons]
      refine ⟨?_, others⟩
      intro other member
      obtain ⟨source, inRest, -, held | ⟨-, -, new⟩⟩ :=
        mem_served_allot reads (covers.tail _) member
      · have reserved := covers.held source (List.mem_cons_of_mem _ inRest) held.1
        rw [held.2]
        rcases origin with ⟨nonempty, kept, -⟩ | ⟨-, free, -⟩
        · rw [kept]
          exact fun same => nonempty (ahead source inRest same)
        · intro same
          exact (Ipam.allocateIP_ok reads covers.reserved free).2 (same ▸ reserved)
      · rcases origin with ⟨nonempty, kept, -⟩ | ⟨-, -, taken⟩
        · intro same
          refine new (List.mem_append_left _
            (same ▸ kept ▸ covers.held peer List.mem_cons_self nonempty))
        · intro same
          exact new (List.mem_append_right _ (by simp [taken, same]))

end Loop

section Plan
variable {wg : Wireguard} {current : ListedKeys} {peers : List WireguardPeer}
    {range : Ipam.PeerCIDR}

/-- A served peer is a key holder, with its usable address or a new one. -/
theorem mem_served (reads : Ipam.Reads (effectivePeerCIDR4 wg) range)
    (distinct : (peers.map (·.key)).Nodup) (member : served ∈ (plan wg current peers).served) :
    ∃ holder ∈ keyHolders wg current peers, served.object = holder.object ∧
      range.Holds served.status.address ∧
        (served.status.address = holder.status.address ∨
          ∀ peer ∈ candidates wg current peers, peer.status.address ≠ served.status.address) := by
  have roster : Roster range (candidates wg current peers) := candidates_roster reads distinct
  obtain ⟨candidate, inCandidates, same, held | ⟨empty, holds, new⟩⟩ :=
    mem_served_allot reads (covers_getUsedIPs _ _) member
  all_goals
    obtain ⟨holder, holding, rfl⟩ := mem_cleared.mp ((mem_candidates distinct).mp inCandidates).1
    rw [clearUnusable_object] at same
  · have usable := (roster.holds _ inCandidates).resolve_left held.1
    refine ⟨holder, holding, same, held.2 ▸ usable, .inl ?_⟩
    rcases clearUnusable_cases reads holder with ⟨-, kept⟩ | ⟨-, empty⟩
    · rw [held.2, kept]
    · exact absurd empty held.1
  · refine ⟨holder, holding, same, holds, .inr fun peer inC taken => new ?_⟩
    exact Ipam.mem_getUsedIPs.mpr (.inr ⟨holds.ne_empty, peer, inC, taken⟩)

theorem served_objects (wg : Wireguard) (current : ListedKeys) (peers : List WireguardPeer) :
    ((plan wg current peers).served.map (·.object)).Sublist
      ((keyHolders wg current peers).map (·.object)) := by
  rw [← cleared_objects]
  exact (allot_objects _ _ _).trans (dedupe_keep_sublist.map _)

theorem served_apart (reads : Ipam.Reads (effectivePeerCIDR4 wg) range)
    (distinct : (peers.map (·.key)).Nodup) :
    (plan wg current peers).served.Pairwise fun p q => p.status.address ≠ q.status.address :=
  allot_apart reads (covers_getUsedIPs _ _) (candidates_roster reads distinct).apart

end Plan
end TunnelOperator.Controller
