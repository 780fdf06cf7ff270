import TunnelOperator.Library.Lockstep
import TunnelOperator.Controller.Listable
import TunnelOperator.Controller.Fates

/-! Two runs of reconcilePeers that differ in the outcome of one peer's status write issue
the same calls and agree on all other peers. -/
namespace TunnelOperator.Controller
open Program Resources

/-- The status says that the peer is not ready. -/
def RecordsNotReady (write : WireguardPeer) : Prop :=
  (findStatusCondition write.status.conditions conditionReady).map (·.status) = some .false

/-- The outcomes a pass survives: success, Conflict, NotFound, and Invalid where a state
that is not ready is recorded. -/
def Tolerated (write : WireguardPeer) : Except ApiError Unit → Prop
  | .ok _ => True
  | .error e => skipPeerWrite e = true ∨ e.isInvalid = true ∧ RecordsNotReady write

/-- The answers of two runs to one call: the same, but for the status writes of `key`. -/
def PairedExcept (key : NamespacedName) : (request : Call) → Answer request → Answer request → Prop
  | .updatePeerStatus write, answer, answer' =>
    if write.key = key then Tolerated write answer ∧ Tolerated write answer' else answer = answer'
  | _, answer, answer' => answer = answer'

/-- The same peers, in order, once those named `key` are left out. -/
def SameExcept (key : NamespacedName) (first second : List WireguardPeer) : Prop :=
  first.filter (·.key ≠ key) = second.filter (·.key ≠ key)

section Lockstep
variable {key : NamespacedName} {cidr4 : String}

theorem notReadyWrite_records (written : notReadyWrite peer nr = some write) :
    RecordsNotReady write := by
  rw [notReadyWrite_some written, RecordsNotReady, notReadyStatus]
  exact congrArg (Option.map _) (find_setStatusCondition _ ⟨conditionReady, .false, _, _, _⟩)

theorem readied_records (peer : WireguardPeer) : ¬RecordsNotReady (readied peer) := by
  rw [RecordsNotReady, readied, find_removeStatusCondition]
  nofun

/-- What the loops do about the outcome of a record that the peer is not ready. -/
def recorded : Except ApiError Unit → Reconciler Unit
  | .ok _ => return ()
  | .error e => if e.isInvalid || skipPeerWrite e then return () else .fail e

theorem mark_eq (peer : WireguardPeer) (nr : NotReady) :
    (markPeerNotReady peer nr >>= orSkip) =
      match notReadyWrite peer nr with
      | none => .done ()
      | some write => .call (.updatePeerStatus write) recorded := by
  unfold markPeerNotReady notReadyWrite
  split
  · rfl
  · simp only [ask_bind, call_bind]
    congr 1
    funext answer
    cases answer with
    | ok _ => rfl
    | error e => cases invalid : e.isInvalid <;> cases skipped : skipPeerWrite e <;>
        simp [recorded, invalid, skipped, orSkip]

theorem recorded_tolerated (tolerated : Tolerated write answer) : recorded answer = .done () := by
  cases answer with
  | ok _ => rfl
  | error e =>
    refine if_pos ?_
    rcases tolerated with skipped | ⟨invalid, -⟩
    · rw [skipped, Bool.or_true]
    · rw [invalid, Bool.true_or]

theorem recorded_self (answer : Except ApiError Unit) :
    Lockstep (PairedExcept key) (fun _ _ => True) (recorded answer) (recorded answer) := by
  cases answer with
  | ok _ => exact .done trivial
  | error e =>
    by_cases survived : (e.isInvalid || skipPeerWrite e) = true
    · rw [show recorded (.error e) = .done () from if_pos survived]
      exact .done trivial
    · rw [show recorded (.error e) = .fail e from if_neg survived]
      exact .fail

/-- A record that a peer is not ready, whatever becomes of it. -/
theorem mark_lockstep (peer : WireguardPeer) (nr : NotReady) :
    Lockstep (PairedExcept key) (fun _ _ => True) (markPeerNotReady peer nr >>= orSkip)
      (markPeerNotReady peer nr >>= orSkip) := by
  rw [mark_eq]
  cases notReadyWrite peer nr with
  | none => exact .done trivial
  | some write =>
    refine .call fun answer answer' pair => ?_
    simp only [PairedExcept] at pair
    split at pair
    · rw [recorded_tolerated pair.1, recorded_tolerated pair.2]
      exact .done trivial
    · exact pair ▸ recorded_self answer

theorem markEach_lockstep (refusals : List (WireguardPeer × NotReady)) :
    Lockstep (PairedExcept key) (fun _ _ => True) (markEach refusals) (markEach refusals) := by
  induction refusals with
  | nil => exact .done trivial
  | cons entry rest ih =>
    obtain ⟨peer, nr⟩ := entry
    have steps := (mark_lockstep peer nr).bind fun _ _ _ => ih
    simpa only [markEach, bind_assoc] using steps

theorem sameExcept_cons (same : SameExcept key first second) (peer : WireguardPeer) :
    SameExcept key (peer :: first) (peer :: second) := by
  unfold SameExcept at same ⊢
  rw [List.filter_cons, List.filter_cons, same]

/-- What the loop returns when the write of `peer` succeeded, and when it was skipped. -/
theorem sameExcept_left (named : peer.key = key) (same : SameExcept key first second) :
    SameExcept key (peer :: first) second := by
  unfold SameExcept at same ⊢
  rw [List.filter_cons, if_neg (by simp [named]), same]

theorem SameExcept.symm (same : SameExcept key first second) : SameExcept key second first :=
  Eq.symm same

/-- The peers written with an address are recorded as ready. -/
def WritesReady (allotments : List Allotment) : Prop :=
  ∀ peer, .fresh peer ∈ allotments ∨ .renewed peer ∈ allotments → ¬RecordsNotReady peer

/-- What the loop of allocatePeers does about the outcome of a write. -/
def allocated (returned skipped : Reconciler (List WireguardPeer)) :
    Except ApiError Unit → Reconciler (List WireguardPeer)
  | .error e => if skipPeerWrite e then skipped else .fail e
  | .ok _ => returned

theorem carryOut_fresh (peer : WireguardPeer) (rest : List Allotment) :
    carryOut cidr4 (.fresh peer :: rest) = .call (.updatePeerStatus peer)
      (allocated (carryOut cidr4 rest >>= fun out => pure (peer :: out))
        (carryOut cidr4 rest)) := by
  simp only [carryOut, ask_bind]
  congr 1
  funext answer
  cases answer <;> rfl

theorem carryOut_renewed (peer : WireguardPeer) (rest : List Allotment) :
    carryOut cidr4 (.renewed peer :: rest) = .call (.updatePeerStatus peer)
      (allocated (carryOut cidr4 rest >>= fun out => pure (peer :: out))
        (carryOut cidr4 rest >>= fun out => pure (peer :: out))) := by
  simp only [carryOut, ask_bind]
  congr 1
  funext answer
  cases answer <;> rfl

theorem allocated_tolerated (ready : ¬RecordsNotReady peer) (tolerated : Tolerated peer answer)
    (returned skipped : Reconciler (List WireguardPeer)) :
    allocated returned skipped answer = returned ∨ allocated returned skipped answer = skipped := by
  cases answer with
  | ok _ => exact .inl rfl
  | error e =>
    rcases tolerated with skips | ⟨-, records⟩
    · exact .inr (if_pos skips)
    · exact absurd records ready

/-- The write of a ready peer: where its outcomes may differ, it may be returned in one run
and left out in the other. -/
theorem write_lockstep {returned skipped : Reconciler (List WireguardPeer)}
    (ready : ¬RecordsNotReady peer)
    (returns : Lockstep (PairedExcept key) (SameExcept key) returned returned)
    (skips : Lockstep (PairedExcept key) (SameExcept key) skipped skipped)
    (crosses : peer.key = key → Lockstep (PairedExcept key) (SameExcept key) returned skipped ∧
      Lockstep (PairedExcept key) (SameExcept key) skipped returned) :
    Lockstep (PairedExcept key) (SameExcept key)
      (.call (.updatePeerStatus peer) (allocated returned skipped))
      (.call (.updatePeerStatus peer) (allocated returned skipped)) := by
  refine .call fun answer answer' pair => ?_
  simp only [PairedExcept] at pair
  split at pair
  · rename_i named
    obtain ⟨forward, backward⟩ := crosses named
    rcases allocated_tolerated ready pair.1 returned skipped with left | left <;>
      rcases allocated_tolerated ready pair.2 returned skipped with right
        | right <;> rw [left, right] <;> assumption
  · subst pair
    cases answer with
    | ok _ => exact returns
    | error e =>
      by_cases skip : skipPeerWrite e = true
      · rw [show allocated returned skipped (.error e) = skipped from if_pos skip]
        exact skips
      · rw [show allocated returned skipped (.error e) = .fail e from if_neg skip]
        exact .fail

theorem WritesReady.tail (ready : WritesReady (allotment :: rest)) : WritesReady rest :=
  fun peer member => ready peer (member.imp (List.mem_cons_of_mem _) (List.mem_cons_of_mem _))

theorem carryOut_lockstep (ready : WritesReady allotments) :
    Lockstep (PairedExcept key) (SameExcept key) (carryOut cidr4 allotments)
      (carryOut cidr4 allotments) := by
  induction allotments with
  | nil => exact .done rfl
  | cons allotment rest ih =>
    have later := ih ready.tail
    let returning := fun peer : WireguardPeer => carryOut cidr4 rest >>= fun out => pure
      (peer :: out)
    have returns : ∀ peer, Lockstep (PairedExcept key) (SameExcept key) (returning peer)
        (returning peer) :=
      fun peer => later.bind fun _ _ same => .done (sameExcept_cons same peer)
    have crosses : ∀ peer : WireguardPeer, peer.key = key →
        Lockstep (PairedExcept key) (SameExcept key) (returning peer)
          (carryOut cidr4 rest >>= .done) ∧
          Lockstep (PairedExcept key) (SameExcept key) (carryOut cidr4 rest >>= .done)
            (returning peer) :=
      fun peer named => ⟨later.bind fun _ _ same => .done (sameExcept_left named same),
        later.bind fun _ _ same => .done (sameExcept_left named same.symm).symm⟩
    cases allotment with
    | exhausted peer =>
      have steps := (mark_lockstep peer (addressPoolExhausted cidr4)).bind fun _ _ _ => later
      simpa only [carryOut, bind_assoc] using steps
    | unchanged peer => exact returns peer
    | renewed peer =>
      rw [carryOut_renewed]
      exact write_lockstep (ready peer (.inr List.mem_cons_self)) (returns peer) (returns peer)
        fun _ => ⟨returns peer, returns peer⟩
    | fresh peer =>
      rw [carryOut_fresh]
      rw [bind_done] at crosses
      exact write_lockstep (ready peer (.inl List.mem_cons_self)) (returns peer) later
        (crosses peer)

/-- Anything but a peer's status write. -/
def Asks : Call → Prop
  | .updatePeerStatus _ => False
  | _ => True

theorem same_of_asks (asks : Asks request) (pair : PairedExcept key request answer answer') :
    answer = answer' := by
  cases request with
  | updatePeerStatus => exact asks.elim
  | _ => exact pair

theorem plan_writesReady (wg : Wireguard) (current : ListedKeys) (peers : List WireguardPeer) :
    WritesReady (plan wg current peers).allotments := by
  intro peer member
  have readies : ∀ allotment, allotment ∈ (plan wg current peers).allotments →
      allotment = .fresh peer ∨ allotment = .renewed peer → ¬RecordsNotReady peer := by
    intro allotment inside shape
    obtain ⟨candidate, -, used, allots, -⟩ := mem_allotments inside
    cases allots with
    | exhausted | unchanged => rcases shape with same | same <;> contradiction
    | fresh =>
      rcases shape with same | same
      · exact Allotment.fresh.inj same ▸ readied_records _
      · contradiction
    | renewed =>
      rcases shape with same | same
      · contradiction
      · exact Allotment.renewed.inj same ▸ readied_records _
  rcases member with fresh | renewed
  · exact readies _ fresh (.inl rfl)
  · exact readies _ renewed (.inr rfl)

theorem reconcilePeers_lockstep (req : NamespacedName) (wg : Wireguard) :
    Lockstep (PairedExcept key) (SameExcept key) (reconcilePeers req wg)
      (reconcilePeers req wg) := by
  rw [reconcilePeers_eq]
  have keys : Lockstep (PairedExcept key) _ (admittedKeys wg) (admittedKeys wg) :=
    lockstep_self (admittedKeys_safe (fun _ => trivial) wg) same_of_asks
  have peers : Lockstep (PairedExcept key) _ (getWireguardPeers req) (getWireguardPeers req) :=
    lockstep_self (getWireguardPeers_safe (show Asks .listPeers from trivial) req) same_of_asks
  refine keys.bind ?_
  rintro current _ ⟨rfl, -⟩
  refine peers.bind ?_
  rintro listed _ ⟨rfl, -⟩
  exact (markEach_lockstep _).bind fun _ _ _ => carryOut_lockstep
    (plan_writesReady wg current listed)

end Lockstep

end TunnelOperator.Controller
