import TunnelOperator.Controller.Turns

/-! A lost status write concerns its own peer alone: all other peers fare the same, and the
peer itself is returned exactly when it holds its address. -/
namespace TunnelOperator.Controller
open Program Resources

section Returned
variable {env : Environment Call Answer S} {cidr4 : String}

def ReadsSecret : Call → Prop
  | .getSecret _ => True
  | _ => False

theorem getWireguardPeers_run (run : Trace env s (getWireguardPeers req) events (.done peers) t) :
    ∃ items, peers = relatedPeers req items ∧ events = [⟨.listPeers, .ok items⟩] := by
  simp only [getWireguardPeers, demand, ask_bind, call_bind] at run
  cases run with
  | @call _ _ answer _ _ _ _ _ answered after =>
    cases answer with
    | ok items =>
      cases after
      exact ⟨items, rfl, rfl⟩
    | error e => cases after

/-- A run that returns has listed the peers once and carried the plan for them out. -/
theorem reconcilePeers_run (run : Trace env s (reconcilePeers req wg) events (.done admitted) t) :
    ∃ current items u before after,
      Trace env u (execute (effectivePeerCIDR4 wg) (plan wg current (relatedPeers req items))) after
        (.done admitted) t ∧
      events = before ++ after ∧ (∀ event ∈ before, Asks event.1) ∧
      ∀ items', ⟨.listPeers, .ok items'⟩ ∈ events → items' = items := by
  rw [reconcilePeers_eq] at run
  obtain ⟨current, _, first, _, keys, planning, rfl⟩ := run.bind_returned
  obtain ⟨peers, u, second, after, listing, carried, rfl⟩ := planning.bind_returned
  obtain ⟨items, rfl, rfl⟩ := getWireguardPeers_run listing
  have reads : ∀ event ∈ first, ReadsSecret event.1 :=
    (run_safe keys (admittedKeys_safe (fun _ => trivial) wg)).1
  have writes := (run_safe carried (execute_safe _)).1
  refine ⟨current, items, u, first ++ [⟨.listPeers, .ok items⟩], after, carried, by simp, ?_, ?_⟩
  · intro event member
    rcases List.mem_append.mp member with early | here
    · obtain ⟨request, answer⟩ := event
      cases request with
      | getSecret => trivial
      | _ => exact (reads _ early).elim
    · rw [List.mem_singleton.mp here]
      trivial
  · intro items' member
    rcases List.mem_append.mp member with early | here
    · exact (reads _ early).elim
    · rcases List.mem_append.mp here with listed | late
      · cases List.mem_singleton.mp listed
        rfl
      · obtain ⟨write, -, same⟩ := writes _ late
        contradiction

/-- The peer's listed address, usable on this server, is the one it is written with. -/
def KeepsAddress (wg : Wireguard) (peers : List WireguardPeer) (write : WireguardPeer) : Prop :=
  ∃ listed ∈ peers, listed.key = write.key ∧
    addressUsable listed.status.address (effectivePeerCIDR4 wg) = true ∧
    listed.status.address = write.status.address

/-- The peers allocatePeers writes with the address they have are those whose listed address
is usable. -/
theorem renewed_iff (distinct : (peers.map (·.key)).Nodup)
    (member : .fresh write ∈ (plan wg current peers).allotments ∨
      .renewed write ∈ (plan wg current peers).allotments) :
    .renewed write ∈ (plan wg current peers).allotments ↔ KeepsAddress wg peers write := by
  -- A candidate is a listed peer, less an address that is not usable.
  have origin : ∀ {candidate}, candidate ∈ candidates wg current peers →
      ∃ listed ∈ peers, candidate = clearUnusable (effectivePeerCIDR4 wg) listed := by
    intro candidate inside
    obtain ⟨listed, holding, rfl⟩ := mem_cleared.mp (dedupe_keep_sublist.subset inside)
    exact ⟨listed, (mem_admissible.mp (keyHolders_sublist.subset holding)).1, rfl⟩
  constructor
  · intro renewed
    obtain ⟨candidate, inside, used, allots, -⟩ := mem_allotments renewed
    cases allots with
    | renewed held _ =>
      obtain ⟨listed, here, rfl⟩ := origin inside
      obtain ⟨same, usable⟩ := clearUnusable_usable held
      exact ⟨listed, here, by rw [same]; rfl, usable, by rw [same]; rfl⟩
  · rintro ⟨listed, here, named, usable, -⟩
    rcases member with fresh | renewed
    · obtain ⟨candidate, inside, used, allots, -⟩ := mem_allotments fresh
      cases allots with
      | fresh empty _ =>
        obtain ⟨other, there, rfl⟩ := origin inside
        have own : (clearUnusable (effectivePeerCIDR4 wg) other).key = other.key :=
          key_of_object (clearUnusable_object _ _)
        obtain rfl : other = listed :=
          List.inj_on_of_nodup_map distinct there here (own.symm.trans named.symm)
        rw [clearUnusable_of_usable usable] at empty
        rw [empty, addressUsable_empty] at usable
        contradiction
    · exact renewed

/-- A peer that allocatePeers has written is returned exactly when the write succeeded or it
already held the address it keeps. -/
theorem written_returned (run : Trace env s (reconcilePeers req wg) events (.done admitted) t)
    (listing : ⟨.listPeers, .ok items⟩ ∈ events) (distinct : (items.map (·.key)).Nodup)
    (member : ⟨.updatePeerStatus write, answer⟩ ∈ events) (ready : ¬RecordsNotReady write) :
    (∃ returned ∈ admitted, returned.key = write.key) ↔
      answer = .ok () ∨ KeepsAddress wg (relatedPeers req items) write := by
  obtain ⟨current, found, u, before, after, carried, rfl, asks, only⟩ := reconcilePeers_run run
  obtain rfl := only items listing
  have related : ((relatedPeers req items).map (·.key)).Nodup :=
    distinct.sublist (List.filter_sublist.map _)
  obtain ⟨_, v, marks, allots, marking, allotting, rfl⟩ := carried.bind_returned
  have here : ⟨.updatePeerStatus write, answer⟩ ∈ allots := by
    rcases List.mem_append.mp member with early | late
    · exact (asks _ early).elim
    · rcases List.mem_append.mp late with marked | written
      · exact absurd (markEach_records marking marked) ready
      · exact written
  have names : ((plan wg current (relatedPeers req items)).allotments.map (·.peer.key)).Nodup := by
    rw [plan, allot_keys]
    exact (cleared_distinct related).sublist (dedupe_keep_sublist.map _)
  have allotted : .fresh write ∈ (plan wg current (relatedPeers req items)).allotments ∨
      .renewed write ∈ (plan wg current (relatedPeers req items)).allotments := by
    obtain ⟨other, listed, same⟩ := (run_safe allotting (carryOut_safe _)).1 _ here
    obtain rfl := Call.updatePeerStatus.inj same
    obtain ⟨allotment, inside, written⟩ := List.mem_filterMap.mp listed
    cases allotment with
    | exhausted => exact absurd (notReadyWrite_records written) ready
    | fresh => exact .inl (Option.some.inj written ▸ inside)
    | renewed => exact .inr (Option.some.inj written ▸ inside)
    | unchanged => contradiction
  rw [carryOut_returned names allotting here ready, renewed_iff related allotted]

end Returned

/-- Two runs that get the same answers, up to the outcomes of the status writes of the peer
`key`, issue the same calls, fail alike and return the same other peers with the same
addresses. -/
theorem lost_write_confined {S : Type} (req : NamespacedName) (wg : Wireguard)
    (key : NamespacedName) (one two : Handler Call Answer S) (start : S)
    (answers : ∀ s request, PairedExcept key request (one s request).1 (two s request).1)
    (states : ∀ s request, (one s request).2 = (two s request).2) :
    let first := (reconcilePeers req wg).play one start
    let second := (reconcilePeers req wg).play two start
    first.1.map (·.1) = second.1.map (·.1) ∧
    (∀ e, first.2.1 = .fail e ↔ second.2.1 = .fail e) ∧
    (∀ admitted, first.2.1 = .done admitted → ∃ admitted', second.2.1 = .done admitted' ∧
      admitted.filter (·.key ≠ key) = admitted'.filter (·.key ≠ key)) ∧
    ∀ items admitted write answer, ⟨.listPeers, .ok items⟩ ∈ first.1 → (items.map (·.key)).Nodup →
      first.2.1 = .done admitted → ⟨.updatePeerStatus write, answer⟩ ∈ first.1 → write.key = key →
      ¬RecordsNotReady write →
      ((∃ returned ∈ admitted, returned.key = key) ↔ answer = .ok () ∨
        KeepsAddress wg (relatedPeers req items) write) := by
  intro first second
  obtain ⟨calls, ended⟩ := (reconcilePeers_lockstep req wg).play answers states start
  refine ⟨calls, ended.fail_iff, fun _ => ended.done, ?_⟩
  intro items admitted write answer listing distinct returned member named ready
  let env : Environment Call Answer S := fun s request answer t => answer = (one s request).1 ∧
    t = (one s request).2
  have run : Trace env start (reconcilePeers req wg) first.1 first.2.1 first.2.2 :=
    play_trace one (fun _ _ => ⟨rfl, rfl⟩) _ start
  rw [returned] at run
  rw [← named]
  exact written_returned run listing distinct member ready

/-! The sample pass, in which the write of one of the two new peers meets a Conflict. -/

def laptopKey : NamespacedName := ⟨"apps", "laptop"⟩

def conflictHandler : Handler Call Answer Unit := fun s request =>
  match request with
  | .updatePeerStatus write =>
    (if write.key = laptopKey then .error ⟨.conflict, "the object has been modified"⟩ else .ok (),
      s)
  | other => sampleHandler s other

theorem conflictHandler_paired (s : Unit) (request : Call) :
    PairedExcept laptopKey request (sampleHandler s request).1 (conflictHandler s request).1 := by
  cases request with
  | updatePeerStatus write =>
    simp only [PairedExcept, conflictHandler]
    split
    · exact ⟨trivial, .inl rfl⟩
    · rfl
  | _ => rfl

def samplePass : List (Event Call Answer) × Outcome ApiError (List WireguardPeer) × Unit :=
  (reconcilePeers sampleServer.key sampleServer).play sampleHandler ()

def conflictPass : List (Event Call Answer) × Outcome ApiError (List WireguardPeer) × Unit :=
  (reconcilePeers sampleServer.key sampleServer).play conflictHandler ()

/-- The laptop's address stays reserved, so the phone gets the same one in both passes. -/
theorem phone_keeps_its_address :
    samplePass.2.1.value.map (·.map (·.status.address)) = some ["10.8.0.2", "10.8.0.3"] ∧
    conflictPass.2.1.value.map (·.map (·.status.address)) = some ["10.8.0.3"] ∧
    samplePass.1.map (·.1) = conflictPass.1.map (·.1) := by
  refine ⟨by decide +kernel, by decide +kernel, ?_⟩
  exact (lost_write_confined sampleServer.key sampleServer laptopKey sampleHandler
    conflictHandler () conflictHandler_paired fun _ _ => rfl).1

end TunnelOperator.Controller
