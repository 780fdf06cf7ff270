import TunnelOperator.Controller.Effects
import TunnelOperator.Controller.Listable
import TunnelOperator.Controller.PoolRoom

/-! How far a peerCIDR goes: allocatePeers serves as many peers as the range has room for,
in the order of the list, and tells the others that it is full. -/
namespace TunnelOperator.Controller
open Netip Program Pool

section Service
variable {cidr : String} {range : Ipam.PeerCIDR} {peers : List WireguardPeer} {used : List String}

def unaddressed (peers : List WireguardPeer) : List WireguardPeer :=
  peers.filter (·.status.address = "")

def addressHolders (peers : List WireguardPeer) : List WireguardPeer :=
  peers.filter (·.status.address ≠ "")

theorem unaddressed_cons (empty : peer.status.address = "") (rest : List WireguardPeer) :
    unaddressed (peer :: rest) = peer :: unaddressed rest ∧ addressHolders (peer :: rest) =
      addressHolders rest := by
  simp [unaddressed, addressHolders, empty]

theorem addressHolders_cons (held : peer.status.address ≠ "") (rest : List WireguardPeer) :
    unaddressed (peer :: rest) = unaddressed rest ∧ addressHolders (peer :: rest) =
      peer :: addressHolders rest := by
  simp [unaddressed, addressHolders, held]

/-- What a peer is after it was served. -/
structure Served (cidr : String) (peer result : WireguardPeer) : Prop where
  object : result.object = peer.object
  configured : result.status.status = ready
  kept : peer.status.address ≠ "" → result.status.address = peer.status.address
  usable : addressUsable result.status.address cidr = true

theorem Allots.serves (reads : Ipam.Reads cidr range) (covers : Covers cidr used peers)
    (settled : peer.status.address = "" ∨ range.Holds peer.status.address)
    (allots : Allots cidr used peer allotment) (serves : allotment.served = some result) :
    Served cidr peer result := by
  cases allots with
  | exhausted => contradiction
  | fresh empty free =>
    obtain rfl := Option.some.inj serves
    have holds := (Ipam.allocateIP_ok reads covers.reserved free).1
    exact ⟨rfl, rfl, fun held => absurd empty held, (addressUsable_iff reads).mpr holds⟩
  | renewed held =>
    obtain rfl := Option.some.inj serves
    exact ⟨rfl, rfl, fun _ => rfl, (addressUsable_iff reads).mpr (settled.resolve_left held)⟩
  | unchanged held done =>
    obtain rfl := Option.some.inj serves
    rw [settledReady, Bool.and_eq_true, decide_eq_true_eq] at done
    exact ⟨rfl, done.1, fun _ => rfl, (addressUsable_iff reads).mpr (settled.resolve_left held)⟩

/-- Which peers the loop serves when `used` is what is taken: all that have an address, and
of the others the first, as many as there are unused addresses. -/
structure ServesFirst (cidr : String) (room : Nat) (peers served out : List WireguardPeer) :
    Prop where
  order : served.Sublist peers
  first : unaddressed served = (unaddressed peers).take room
  all : addressHolders served = addressHolders peers
  results : List.Forall₂ (Served cidr) served out

theorem ServesFirst.fresh (empty : peer.status.address = "")
    (serves : ServesFirst cidr room rest served out)
    (one : Served cidr peer result) :
    ServesFirst cidr (room + 1) (peer :: rest) (peer :: served) (result :: out) where
  order := serves.order.cons_cons peer
  first := by
    rw [(unaddressed_cons empty _).1, (unaddressed_cons empty _).1, List.take_succ_cons,
      serves.first]
  all := by
    rw [(unaddressed_cons empty _).2, (unaddressed_cons empty _).2, serves.all]
  results := .cons one serves.results

theorem ServesFirst.held (held : peer.status.address ≠ "")
    (serves : ServesFirst cidr room rest served out)
    (one : Served cidr peer result) :
    ServesFirst cidr room (peer :: rest) (peer :: served) (result :: out) where
  order := serves.order.cons_cons peer
  first := by rw [(addressHolders_cons held _).1, (addressHolders_cons held _).1, serves.first]
  all := by rw [(addressHolders_cons held _).2, (addressHolders_cons held _).2, serves.all]
  results := .cons one serves.results

theorem ServesFirst.exhausted (empty : peer.status.address = "")
    (serves : ServesFirst cidr 0 rest served out) :
    ServesFirst cidr 0 (peer :: rest) served out where
  order := serves.order.cons peer
  first := by simpa using serves.first
  all := by rw [(unaddressed_cons empty _).2, serves.all]
  results := serves.results

theorem allot_serves (reads : Ipam.Reads cidr range) (covers : Covers cidr used peers)
    (settled : ∀ peer ∈ peers, peer.status.address = "" ∨ range.Holds peer.status.address) :
    (∃ served, ServesFirst cidr (unused (rangeTexts range) used).length peers served
      ((allot cidr used peers).filterMap Allotment.served)) ∧
    ∀ peer ∈ (unaddressed peers).drop (unused (rangeTexts range) used).length,
      Allotment.exhausted peer ∈ allot cidr used peers := by
  induction peers generalizing used with
  | nil => exact ⟨⟨[], ⟨.slnil, by simp [unaddressed], rfl, .nil⟩⟩, by simp [unaddressed]⟩
  | cons peer rest ih =>
    obtain ⟨allotment, allots, next⟩ := allot_cons cidr used peer rest
    obtain ⟨own, others⟩ := List.forall_mem_cons.mp settled
    obtain ⟨⟨served, serves⟩, exhausted⟩ := ih (covers.tail allotment.taken) others
    rw [next]
    rcases allots.served_cases with ⟨rfl, empty, message, full⟩ | ⟨result, returned, -, origin⟩
    · have spent : unused (rangeTexts range) used = [] := by
        rw [allocateIP_unused reads] at full
        cases left : unused (rangeTexts range) used with
        | nil => rfl
        | cons ip more => simp [left] at full
      simp only [Allotment.taken, List.append_nil, spent, List.length_nil, List.drop_zero]
        at serves exhausted ⊢
      rw [List.filterMap_cons_none rfl, (unaddressed_cons empty rest).1]
      refine ⟨⟨served, serves.exhausted empty⟩, ?_⟩
      intro p member
      rcases List.mem_cons.mp member with rfl | later
      · exact List.mem_cons_self
      · exact List.mem_cons_of_mem _ (exhausted p later)
    · have one := allots.serves reads covers own returned
      rw [List.filterMap_cons_some returned]
      rcases origin with ⟨held, -, taken⟩ | ⟨empty, free, taken⟩
      · rw [taken, List.append_nil] at serves exhausted ⊢
        rw [(addressHolders_cons held rest).1]
        exact ⟨⟨_, serves.held held one⟩,
          fun p member => List.mem_cons_of_mem _ (exhausted p member)⟩
      · rw [allocateIP_unused reads] at free
        cases left : unused (rangeTexts range) used with
        | nil => simp [left] at free
        | cons ip more =>
          simp only [left, Except.ok.injEq] at free
          rw [taken, ← free, unused_concat (texts_nodup range) left] at serves exhausted
          rw [taken, ← free, List.length_cons, (unaddressed_cons empty rest).1, List.drop_succ_cons]
          exact ⟨⟨_, serves.fresh empty one⟩,
            fun p member => List.mem_cons_of_mem _ (exhausted p member)⟩

/-- The room of a range beside the peers that hold an address of it. -/
theorem unused_length (reads : Ipam.Reads cidr range)
    (settled : ∀ peer ∈ peers, peer.status.address = "" ∨ range.Holds peer.status.address)
    (distinct : ((addressHolders peers).map (·.status.address)).Nodup) :
    (unused (rangeTexts range) (Ipam.getUsedIPs cidr peers)).length =
      2 ^ (32 - range.bits) - 2 - (addressHolders peers).length := by
  have used : Ipam.getUsedIPs cidr peers =
      Ipam.deriveReservedIPs cidr ++ (addressHolders peers).map (·.status.address) := by
    rw [Ipam.getUsedIPs, addressHolders, List.filter_map]
    rfl
  have holds : ∀ ip ∈ (addressHolders peers).map (·.status.address), range.Holds ip := by
    intro ip member
    obtain ⟨peer, among, rfl⟩ := List.mem_map.mp member
    obtain ⟨inPeers, held⟩ := List.mem_filter.mp among
    exact (settled peer inPeers).resolve_left (by simpa using held)
  obtain ⟨reservedApart, reservedInside⟩ := reserved_mem_texts reads
  have apart : (Ipam.getUsedIPs cidr peers).Nodup := by
    rw [used, List.nodup_append]
    refine ⟨reservedApart, distinct, ?_⟩
    rintro ip reserved _ held rfl
    exact (holds ip held).not_reserved reads reserved
  have inside : Ipam.getUsedIPs cidr peers ⊆ rangeTexts range := by
    rw [used]
    exact List.append_subset.mpr
      ⟨reservedInside, fun ip member => mem_texts_of_holds (holds ip member)⟩
  rw [length_unused (texts_nodup range) apart inside, texts_length, used, Ipam.reserved reads]
  simp only [List.length_append, List.length_cons, List.length_nil, List.length_map]
  omega

end Service

section Writes
variable {S : Type} {handler : Handler Call Answer S}

theorem markPeerNotReady_play (succeeds : ∀ s peer, (handler s (.updatePeerStatus peer)).1 = .ok ())
    (peer : WireguardPeer) (nr : NotReady) (s : S) :
    ∃ t, (markPeerNotReady peer nr).play handler s =
      ((notReadyWrite peer nr).toList.map landed, .done none, t) := by
  unfold markPeerNotReady notReadyWrite
  split
  · exact ⟨s, rfl⟩
  · simp only [ask_bind, play, succeeds]
    exact ⟨_, rfl⟩

/-- With every write succeeding, every write of the allotments lands and every peer they
serve is returned. -/
theorem carryOut_play (succeeds : ∀ s peer, (handler s (.updatePeerStatus peer)).1 = .ok ())
    (cidr : String) (allotments : List Allotment) (s : S) :
    ∃ t, (carryOut cidr allotments).play handler s =
      ((allotments.filterMap (·.write cidr)).map landed,
        .done (allotments.filterMap Allotment.served), t) := by
  induction allotments generalizing s with
  | nil => exact ⟨s, rfl⟩
  | cons allotment rest ih =>
    -- The rest of the loop, the peer being returned.
    have returning : ∀ peer s, ∃ t,
        (carryOut cidr rest >>= fun allocated => pure (peer :: allocated)).play handler s =
          ((rest.filterMap (·.write cidr)).map landed,
            .done (peer :: rest.filterMap Allotment.served), t) := by
      intro peer s
      obtain ⟨t, played⟩ := ih s
      refine ⟨t, ?_⟩
      rw [play_bind played (show _ = ([], .done _, t) from rfl), List.append_nil]
    cases allotment with
    | exhausted peer =>
      obtain ⟨t, marked⟩ := markPeerNotReady_play succeeds peer (addressPoolExhausted cidr) s
      obtain ⟨u, played⟩ := ih t
      refine ⟨u, ?_⟩
      unfold carryOut
      rw [play_bind marked (show _ = (_, _, u) from played),
        List.filterMap_cons_none (f := Allotment.served) rfl]
      cases written : notReadyWrite peer (addressPoolExhausted cidr) with
      | none => simp [Allotment.write, written]
      | some write => simp [Allotment.write, written]
    | unchanged peer =>
      unfold carryOut
      exact returning peer s
    | fresh peer =>
      obtain ⟨t, played⟩ := returning peer (handler s (.updatePeerStatus peer)).2
      refine ⟨t, ?_⟩
      simp only [carryOut, ask_bind, play, succeeds, played]
      rfl
    | renewed peer =>
      obtain ⟨t, played⟩ := returning peer (handler s (.updatePeerStatus peer)).2
      refine ⟨t, ?_⟩
      simp only [carryOut, ask_bind, play, succeeds, played]
      rfl

end Writes

section Exactness
variable {cidr : String} {range : Ipam.PeerCIDR} {peers : List WireguardPeer}

theorem addresses_apart (distinct : ((addressHolders peers).map (·.status.address)).Nodup) :
    peers.Pairwise fun p q => p.status.address = q.status.address → p.status.address = "" := by
  have apart : ((addressHolders peers)).Pairwise fun p q => p.status.address ≠ q.status.address :=
    List.pairwise_map.mp distinct
  rw [addressHolders, List.pairwise_filter] at apart
  refine apart.imp fun {p q} differ same => ?_
  by_contra held
  exact differ (by simpa using held) (by simpa using same ▸ held) same

/-- A peer that is returned is stored as it is returned. -/
theorem mem_served_stored (member : result ∈ (allot cidr used peers).filterMap Allotment.served) :
    result ∈ peers ∨ result ∈ (allot cidr used peers).filterMap (·.write cidr) := by
  induction peers generalizing used with
  | nil => simp [allot] at member
  | cons peer rest ih =>
    obtain ⟨allotment, allots, next⟩ := allot_cons cidr used peer rest
    rw [next] at member ⊢
    obtain ⟨source, among, serves⟩ := List.mem_filterMap.mp member
    rcases List.mem_cons.mp among with rfl | later
    · cases allots with
      | exhausted => contradiction
      | fresh => exact .inr (List.mem_filterMap.mpr ⟨_, List.mem_cons_self, serves⟩)
      | renewed => exact .inr (List.mem_filterMap.mpr ⟨_, List.mem_cons_self, serves⟩)
      | unchanged => exact .inl (Option.some.inj serves ▸ List.mem_cons_self)
    · rcases ih (List.mem_filterMap.mpr ⟨source, later, serves⟩) with kept | written
      · exact .inl (List.mem_cons_of_mem _ kept)
      · exact .inr (List.filterMap_subset _ (List.subset_cons_self _ _) written)

/-- The peer records that the pool is exhausted: it did before, or it does now. -/
def RecordsExhausted (cidr : String) (events : List (Event Call Answer)) (peer : WireguardPeer) :
    Prop :=
  peerStatusMatches peer (addressPoolExhausted cidr) = true ∨
    landed { peer with status := notReadyStatus peer (addressPoolExhausted cidr) } ∈ events

/-- How many peers without an address the range has room for, beside those that hold one. -/
def seats (peers : List WireguardPeer) (bits : Nat) : Nat :=
  min (unaddressed peers).length (2 ^ (32 - bits) - 2 - (addressHolders peers).length)

/-- A run of allocatePeers that serves as many peers as it can, and no more. -/
structure ExactRun (cidr : String) (peers : List WireguardPeer) (bits : Nat)
    (events : List (Event Call Answer)) (out : List WireguardPeer) : Prop where
  serves : ∃ served, ServesFirst cidr (seats peers bits) peers served out
  apart : (out.map (·.status.address)).Nodup
  stored : ∀ result ∈ out, result ∈ peers ∨ landed result ∈ events
  left : ∀ peer ∈ (unaddressed peers).drop (seats peers bits), RecordsExhausted cidr events peer

theorem ServesFirst.capped (serves : ServesFirst cidr room peers served out) :
    ServesFirst cidr (min (unaddressed peers).length room) peers served out where
  order := serves.order
  first := by
    rw [serves.first, List.take_eq_take_iff]
    omega
  all := serves.all
  results := serves.results

theorem drop_capped (items : List α) (room : Nat) :
    items.drop (min items.length room) = items.drop room := by
  rcases Nat.le_total items.length room with short | long
  · rw [Nat.min_eq_left short, List.drop_length, List.drop_eq_nil_of_le short]
  · rw [Nat.min_eq_right long]

theorem allocatePeers_exact {S : Type} {handler : Handler Call Answer S}
    (reads : Ipam.Reads cidr range)
    (settled : ∀ peer ∈ peers, peer.status.address = "" ∨ range.Holds peer.status.address)
    (distinct : ((addressHolders peers).map (·.status.address)).Nodup)
    (succeeds : ∀ s peer, (handler s (.updatePeerStatus peer)).1 = .ok ()) (s : S) :
    ∃ events out t, (allocatePeers cidr peers).play handler s = (events, .done out, t) ∧
      ExactRun cidr peers range.bits events out := by
  have covers := covers_getUsedIPs cidr peers
  obtain ⟨t, played⟩ := carryOut_play succeeds cidr
    (allot cidr (Ipam.getUsedIPs cidr peers) peers) s
  obtain ⟨⟨served, serves⟩, exhausted⟩ := allot_serves reads covers settled
  rw [unused_length reads settled distinct] at serves exhausted
  rw [← allocateEach_eq] at played
  refine ⟨_, _, t, played, ⟨served, serves.capped⟩, ?_, ?_, ?_⟩
  · exact List.pairwise_map.mpr (allot_apart reads covers (addresses_apart distinct))
  · intro result member
    exact (mem_served_stored member).imp_right fun written => List.mem_map_of_mem written
  · intro peer member
    rw [seats, drop_capped] at member
    unfold RecordsExhausted
    by_cases already : peerStatusMatches peer (addressPoolExhausted cidr) = true
    · exact .inl already
    · refine .inr (List.mem_map_of_mem (List.mem_filterMap.mpr ⟨_, exhausted peer member, ?_⟩))
      exact if_neg already

/-- The allocation of a peerCIDR, call by call and over a whole list of peers, with whatever
generator keeps what ipnetgen promises. -/
structure AllocatesExactly (cidr : String) (peers : List WireguardPeer) : Prop where
  least : ∀ ip, Ipam.allocateIP cidr (Ipam.getUsedIPs cidr peers) = .ok ip ↔
    ∃ value, ip = (Addr.v4 value).string ∧ IsLeast {v | Open cidr peers v} value
  full : (∃ message, Ipam.allocateIP cidr (Ipam.getUsedIPs cidr peers) = .error message) ↔
    ∀ address, addressUsable address cidr = true → ∃ peer ∈ peers, peer.status.address = address
  served : ((addressHolders peers).map (·.status.address)).Nodup →
    ∀ {S : Type} (handler : Handler Call Answer S),
    (∀ s peer, (handler s (.updatePeerStatus peer)).1 = .ok ()) → ∀ s : S, ∃ p events out t,
      parsePrefix cidr = .ok p ∧
        (allocatePeers cidr peers).play handler s = (events, .done out, t) ∧
        ExactRun cidr peers p.bits events out
  generators : ∀ {generate}, Ipam.Ipnetgen generate → ∀ used,
    Ipam.allocateFrom generate cidr used = Ipam.allocateIP cidr used

theorem allocation_exact (cidr : String) (peers : List WireguardPeer)
    (valid : validatePeerCIDR cidr = .ok ())
    (settled : ∀ peer ∈ peers, peer.status.address = "" ∨
      addressUsable peer.status.address cidr = true) :
    AllocatesExactly cidr peers := by
  obtain ⟨range, reads⟩ := validatePeerCIDR_ok valid
  refine ⟨fun ip => allocateIP_least reads, allocateIP_full reads, ?_,
    fun ipnetgen => allocateFrom_eq ipnetgen reads⟩
  intro distinct S handler succeeds s
  have holds : ∀ peer ∈ peers, peer.status.address = "" ∨ range.Holds peer.status.address :=
    fun peer member => (settled peer member).imp_right (addressUsable_iff reads).mp
  obtain ⟨events, out, t, played, exact_⟩ := allocatePeers_exact reads holds distinct succeeds s
  exact ⟨range.net, events, out, t, reads, played, exact_⟩

/-- Two addresses, one of them held, and two more peers. -/
theorem narrow_range_exact : AllocatesExactly "10.8.0.0/30"
    [withAddress (samplePeer "a" 1 firstKey) "10.8.0.3", samplePeer "b" 2 secondKey,
      samplePeer "c" 3 firstKey] :=
  allocation_exact _ _ (by decide +kernel) (by decide +kernel)

end Exactness
end TunnelOperator.Controller
