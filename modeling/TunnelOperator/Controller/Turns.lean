import TunnelOperator.Controller.PairedRuns

/-! The loop of allocatePeers turn by turn: which of the peers it writes a run returns. -/
namespace TunnelOperator.Controller
open Program Resources

section Returned
variable {env : Environment Call Answer S} {cidr4 : String}

/-- The calls of a part of a run, and what it returns, whatever it is answered. -/
theorem run_safe {program : Reconciler α} {allowed : Call → Prop} {post : α → Prop}
    (run : Trace env s program events outcome t)
    (safe : program.Safe (fun _ _ => True) allowed post) :
    (∀ event ∈ events, allowed event.1) ∧ ∀ value, outcome = .done value → post value :=
  run.safe_of_events safe fun _ _ => trivial

theorem markEach_records (run : Trace env s (markEach refusals) events outcome t)
    (member : ⟨.updatePeerStatus write, answer⟩ ∈ events) : RecordsNotReady write := by
  obtain ⟨other, listed, same⟩ := (run_safe run (markEach_safe refusals)).1 _ member
  obtain rfl := Call.updatePeerStatus.inj same
  obtain ⟨⟨peer, nr⟩, -, written⟩ := List.mem_filterMap.mp listed
  exact notReadyWrite_records written

/-- The names of what is returned, and of what is written, are those of the allotments. -/
theorem carryOut_names {allotments : List Allotment}
    (run : Trace env s (carryOut cidr4 allotments) events outcome t) :
    (∀ out, outcome = .done out → ∀ peer ∈ out, peer.key ∈ allotments.map (·.peer.key)) ∧
      ∀ write answer, ⟨.updatePeerStatus write, answer⟩ ∈ events →
        write.key ∈ allotments.map (·.peer.key) := by
  obtain ⟨calls, returns⟩ := run_safe run (carryOut_safe allotments)
  constructor
  · intro out ended peer inside
    obtain ⟨allotment, member, serves⟩ :=
      List.mem_filterMap.mp ((returns out ended).1.subset inside)
    refine List.mem_map.mpr ⟨allotment, member, ?_⟩
    cases allotment with
    | exhausted => contradiction
    | fresh | renewed | unchanged => rw [← Option.some.inj serves]; rfl
  · intro write answer member
    obtain ⟨other, listed, same⟩ := calls _ member
    obtain rfl := Call.updatePeerStatus.inj same
    obtain ⟨allotment, inside, written⟩ := List.mem_filterMap.mp listed
    exact List.mem_map.mpr ⟨allotment, inside, (allotment_write_key written).symm⟩

theorem mark_records (run : Trace env s (markPeerNotReady peer nr >>= orSkip) events outcome t)
    (member : ⟨.updatePeerStatus write, answer⟩ ∈ events) : RecordsNotReady write := by
  obtain ⟨other, listed, same⟩ :=
      (run_safe run ((markPeerNotReady_safe peer nr).bind fun outcome _ =>
    orSkip_safe outcome)).1 _ member
  obtain rfl := Call.updatePeerStatus.inj same
  exact notReadyWrite_records (Option.mem_toList.mp listed)

theorem only_event {answer : Answer (.updatePeerStatus write)}
    {given : Answer (.updatePeerStatus peer)}
    (member : (⟨.updatePeerStatus write, answer⟩ : Event Call Answer) ∈
      [⟨.updatePeerStatus peer, given⟩]) :
    write = peer ∧ answer = given := by
  cases List.mem_singleton.mp member
  exact ⟨rfl, rfl⟩

/-- One turn of the loop: it returns the peer or not, and then the loop goes on. -/
structure Turn (env : Environment Call Answer S) (cidr4 : String) (allotment : Allotment)
    (rest : List Allotment)
    (events : List (Event Call Answer)) (out : List WireguardPeer) (t : S) where
  first : List (Event Call Answer)
  later : List (Event Call Answer)
  others : List WireguardPeer
  returned : Bool
  state : S
  events_eq : events = first ++ later
  tail : Trace env state (carryOut cidr4 rest) later (.done others) t
  out_eq : out = if returned then allotment.peer :: others else others
  /-- A write of a ready peer is this peer's, and decides unless the address was its own. -/
  decides : ∀ write answer, ⟨.updatePeerStatus write, answer⟩ ∈ first → ¬RecordsNotReady write →
    write = allotment.peer ∧ (returned = true ↔ answer = .ok () ∨ allotment = .renewed write)

theorem exists_turn (run : Trace env s (carryOut cidr4 (allotment :: rest)) events (.done out) t) :
    Nonempty (Turn env cidr4 allotment rest events out t) := by
  -- The loop after a peer that is returned.
  have returning : ∀ {u events out},
      Trace env u (carryOut cidr4 rest >>= fun others => pure (allotment.peer :: others))
      events (.done out) t → ∃ others, Trace env u (carryOut cidr4 rest) events (.done others) t ∧
        out = allotment.peer :: others := by
    intro u events out run
    obtain ⟨others, v, first, last, head, ended, rfl⟩ := run.bind_returned
    cases ended
    rw [List.append_nil]
    exact ⟨others, head, rfl⟩
  cases allotment with
  | exhausted peer =>
    have shape : carryOut cidr4 (.exhausted peer :: rest) =
        ((markPeerNotReady peer (addressPoolExhausted cidr4) >>= orSkip) >>= fun _ => carryOut
          cidr4 rest) := by
      simp only [carryOut, bind_assoc]
    rw [shape] at run
    obtain ⟨_, u, first, later, head, tail, rfl⟩ := run.bind_returned
    exact ⟨⟨first, later, out, false, u, rfl, tail, rfl,
      fun _ _ member ready => absurd (mark_records head member) ready⟩⟩
  | unchanged peer =>
    obtain ⟨others, tail, rfl⟩ := returning run
    exact ⟨⟨[], events, others, true, s, rfl, tail, rfl,
      fun _ _ member => absurd member List.not_mem_nil⟩⟩
  | fresh peer =>
    rw [carryOut_fresh] at run
    cases run with
    | @call _ _ answer u _ later _ _ answered after =>
      cases answer with
      | ok _ =>
        obtain ⟨others, tail, rfl⟩ := returning after
        refine ⟨⟨[_], later, others, true, u, rfl, tail, rfl, fun write answer member _ => ?_⟩⟩
        obtain ⟨rfl, rfl⟩ := only_event member
        exact ⟨rfl, by simp⟩
      | error e =>
        by_cases skips : skipPeerWrite e = true
        · rw [allocated, if_pos skips] at after
          refine ⟨⟨[_], later, out, false, u, rfl, after, rfl, fun write answer member _ => ?_⟩⟩
          obtain ⟨rfl, rfl⟩ := only_event member
          exact ⟨rfl, by simp⟩
        · rw [allocated, if_neg skips] at after
          cases after
  | renewed peer =>
    rw [carryOut_renewed] at run
    cases run with
    | @call _ _ answer u _ later _ _ answered after =>
      have kept : ∃ others, Trace env u (carryOut cidr4 rest) later (.done others) t ∧
          out = peer :: others := by
        cases answer with
        | ok _ => exact returning after
        | error e =>
          by_cases skips : skipPeerWrite e = true
          · rw [allocated, if_pos skips] at after
            exact returning after
          · rw [allocated, if_neg skips] at after
            cases after
      obtain ⟨others, tail, rfl⟩ := kept
      refine ⟨⟨[_], later, others, true, u, rfl, tail, rfl, fun write answer member _ => ?_⟩⟩
      obtain ⟨rfl, rfl⟩ := only_event member
      exact ⟨rfl, by simp⟩

/-- A peer that was written with an address is returned exactly when the write succeeded or
the address was its own before. -/
theorem carryOut_returned {allotments : List Allotment}
    (distinct : (allotments.map (·.peer.key)).Nodup)
    (run : Trace env s (carryOut cidr4 allotments) events (.done out) t)
    (member : ⟨.updatePeerStatus write, answer⟩ ∈ events) (ready : ¬RecordsNotReady write) :
    (∃ returned ∈ out, returned.key = write.key) ↔ answer = .ok () ∨
      .renewed write ∈ allotments := by
  induction allotments generalizing s events out with
  | nil =>
    cases run
    contradiction
  | cons allotment rest ih =>
    obtain ⟨absent, distinct'⟩ := List.nodup_cons.mp distinct
    have apart : allotment.peer.key ∉ rest.map (·.peer.key) := absent
    obtain ⟨turn⟩ := exists_turn run
    obtain ⟨returns, writes⟩ := carryOut_names turn.tail
    rw [turn.out_eq]
    rw [turn.events_eq] at member
    rcases List.mem_append.mp member with here | later
    · obtain ⟨rfl, decided⟩ := turn.decides write answer here ready
      have absent : ¬∃ returned ∈ turn.others, returned.key = allotment.peer.key := by
        rintro ⟨other, inside, same⟩
        exact apart (same ▸ returns _ rfl other inside)
      have unrenewed : Allotment.renewed allotment.peer ∉ rest :=
        fun inside => apart (List.mem_map.mpr ⟨_, inside, rfl⟩)
      rw [List.mem_cons, or_iff_left unrenewed, eq_comm (a := Allotment.renewed _), ← decided]
      cases turn.returned with
      | true => simp
      | false => simpa using absent
    · have named : write.key ∈ rest.map (·.peer.key) := writes write answer later
      have other : allotment.peer.key ≠ write.key := fun same => apart (by rwa [← same] at named)
      have same : (∃ returned ∈ (if turn.returned then allotment.peer :: turn.others else turn.others),
          returned.key = write.key) ↔ ∃ returned ∈ turn.others, returned.key = write.key := by
        cases turn.returned <;> simp [other]
      have differs : Allotment.renewed write ≠ allotment := by
        rintro rfl
        exact other rfl
      rw [same, ih distinct' turn.tail later, List.mem_cons, or_iff_right differs]

end Returned
end TunnelOperator.Controller
