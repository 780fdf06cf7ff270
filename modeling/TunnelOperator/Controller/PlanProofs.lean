import TunnelOperator.Controller.Plan

/-! Carrying a plan out: which calls are issued and what is returned, whatever the
status writes are answered. -/
namespace TunnelOperator.Controller

section Execution
variable {expected : (request : Call) → Answer request → Prop} {cidr4 : String}

/-- The calls a plan issues are its writes. -/
def Writes (writes : List WireguardPeer) (request : Call) : Prop :=
  ∃ peer ∈ writes, request = .updatePeerStatus peer

theorem Writes.mono {first second : List WireguardPeer} (subset : first ⊆ second) {request : Call}
    (written : Writes first request) : Writes second request := by
  obtain ⟨peer, member, rfl⟩ := written
  exact ⟨peer, subset member, rfl⟩

theorem orSkip_safe {allowed : Call → Prop} (outcome : Option ApiError) :
    (orSkip outcome).Safe expected allowed fun _ => True := by
  unfold orSkip
  cases outcome with
  | none => simp
  | some e => dsimp only; split <;> simp

theorem markPeerNotReady_safe (peer : WireguardPeer) (nr : NotReady) :
    (markPeerNotReady peer nr).Safe expected
    (Writes (notReadyWrite peer nr).toList) fun _ => True := by
  unfold markPeerNotReady
  split
  · simp
  · rename_i differs
    simp only [Program.ask_bind, Program.safe_call]
    refine ⟨⟨_, by simp [notReadyWrite, differs], rfl⟩, fun answer _ => ?_⟩
    cases answer <;> simp

theorem markEach_safe (refusals : List (WireguardPeer × NotReady)) :
    (markEach refusals).Safe expected
      (Writes (refusals.filterMap fun (peer, nr) => notReadyWrite peer nr)) fun _ => True := by
  induction refusals with
  | nil => simp [markEach]
  | cons entry rest ih =>
    obtain ⟨peer, nr⟩ := entry
    unfold markEach
    have first : (notReadyWrite peer nr).toList ⊆
        ((peer, nr) :: rest).filterMap fun (peer, nr) => notReadyWrite peer nr := by
      cases written : notReadyWrite peer nr <;> simp [written]
    have later : (rest.filterMap fun (peer, nr) => notReadyWrite peer nr) ⊆
        ((peer, nr) :: rest).filterMap fun (peer, nr) => notReadyWrite peer nr :=
      (List.filterMap_subset _ (List.subset_cons_self _ _))
    refine ((markPeerNotReady_safe peer nr).weaken
      (fun _ => Writes.mono first) fun _ _ => trivial).bind
      fun outcome _ => (orSkip_safe outcome).bind fun _ _ => ?_
    exact ih.weaken (fun _ => Writes.mono later) fun _ _ => trivial

/-- What a list of allotments may return: everything it serves, less the new addresses
whose write was skipped. -/
def Returns (allotments : List Allotment) (out : List WireguardPeer) : Prop :=
  out.Sublist (allotments.filterMap Allotment.served) ∧
    (allotments.filterMap Allotment.held).Sublist out

theorem Returns.cons_served {allotment : Allotment} {rest : List Allotment}
    (serves : allotment.served = some peer) (returns : Returns rest out) :
    Returns (allotment :: rest) (peer :: out) := by
  refine ⟨by simpa [serves] using returns.1, ?_⟩
  cases allotment <;> simp_all [Allotment.held, Allotment.served, Returns]
  exact returns.2.cons _

theorem Returns.cons_skipped {allotment : Allotment} {rest : List Allotment}
    (free : allotment.held = none) (returns : Returns rest out) :
    Returns (allotment :: rest) out := by
  refine ⟨?_, by simpa [free] using returns.2⟩
  cases serves : allotment.served with
  | none => simpa [serves] using returns.1
  | some peer => simpa [serves] using returns.1.cons peer

theorem carryOut_safe (allotments : List Allotment) :
    (carryOut cidr4 allotments).Safe expected (Writes (allotments.filterMap (·.write cidr4)))
      (Returns allotments) := by
  induction allotments with
  | nil => simp [carryOut, Returns]
  | cons allotment rest ih =>
    have later : ∀ request, Writes (rest.filterMap (·.write cidr4)) request →
        Writes ((allotment :: rest).filterMap (·.write cidr4)) request :=
      fun _ => Writes.mono (List.filterMap_subset _ (List.subset_cons_self _ _))
    -- The rest of the loop, after this peer was returned or after it was not.
    have returning : ∀ peer, allotment.served = some peer →
        (carryOut cidr4 rest >>= fun allocated => pure (peer :: allocated)).Safe expected
          (Writes ((allotment :: rest).filterMap (·.write cidr4))) (Returns (allotment :: rest)) :=
      fun peer serves => (ih.weaken later fun _ => id).bind fun _ returns =>
        returns.cons_served serves
    have skipping : allotment.held = none → (carryOut cidr4 rest).Safe expected
        (Writes ((allotment :: rest).filterMap (·.write cidr4))) (Returns (allotment :: rest)) :=
      fun free => ih.weaken later fun _ => Returns.cons_skipped free
    cases allotment with
    | exhausted peer =>
      unfold carryOut
      have first : (notReadyWrite peer (addressPoolExhausted cidr4)).toList ⊆
          ((Allotment.exhausted peer :: rest).filterMap (·.write cidr4)) := by
        cases written : notReadyWrite peer (addressPoolExhausted cidr4) <;>
          simp [Allotment.write, written]
      exact ((markPeerNotReady_safe peer _).weaken
        (fun _ => Writes.mono first) fun _ _ => trivial).bind
        fun outcome _ => (orSkip_safe outcome).bind fun _ _ => skipping rfl
    | unchanged peer =>
      unfold carryOut
      exact returning peer rfl
    | fresh peer =>
      simp only [carryOut, Program.ask_bind, Program.safe_call]
      refine ⟨⟨peer, by simp [Allotment.write], rfl⟩, fun answer _ => ?_⟩
      cases answer with
      | ok reply => exact returning peer rfl
      | error e =>
        dsimp only
        split
        · exact skipping rfl
        · simp
    | renewed peer =>
      simp only [carryOut, Program.ask_bind, Program.safe_call]
      refine ⟨⟨peer, by simp [Allotment.write], rfl⟩, fun answer _ => ?_⟩
      cases answer with
      | ok reply => exact returning peer rfl
      | error e =>
        dsimp only
        split
        · exact returning peer rfl
        · simp

/-- Whatever the writes are answered, carrying a plan out issues only its writes and
returns what it serves. -/
theorem execute_safe (p : Plan) :
    (execute cidr4 p).Safe expected (Writes (p.writes cidr4)) (Returns p.allotments) := by
  unfold execute
  refine ((markEach_safe p.refusals).weaken (fun _ => Writes.mono ?_) fun _ _ => trivial).bind
    fun _ _ => (carryOut_safe p.allotments).weaken (fun _ => Writes.mono ?_) fun _ => id
  · exact List.subset_append_left _ _
  · exact List.subset_append_right _ _

end Execution
end TunnelOperator.Controller
