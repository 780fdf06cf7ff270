import TunnelOperator.Controller.ClusterProofs
import TunnelOperator.Controller.SecretProofs

/-! A plan carried out while every status write succeeds: exactly its writes take
effect, in order, and exactly what it serves is returned. -/
namespace TunnelOperator.Controller
open Program

/-- The stored peer after the writes that name it. -/
def applyWrites (writes : List WireguardPeer) (peer : WireguardPeer) : WireguardPeer :=
  writes.foldl (fun peer write => if peer.key = write.key then { peer with status := write.status }
    else peer) peer

def Cluster.applyAll (c : Cluster) (writes : List WireguardPeer) : Cluster :=
  writes.foldl Cluster.setPeerStatus c

/-- The event of a peer write that succeeded. -/
def landed (write : WireguardPeer) : Event Call Answer := ⟨.updatePeerStatus write, .ok ()⟩

section Writes
variable {writes : List WireguardPeer} {c : Cluster}

theorem applyAll_peers (c : Cluster) (writes : List WireguardPeer) :
    (c.applyAll writes).peers = c.peers.map (applyWrites writes) := by
  induction writes generalizing c with
  | nil => exact (List.map_id c.peers).symm
  | cons write rest ih =>
    have next := ih (c.setPeerStatus write)
    simp only [Cluster.applyAll, List.foldl_cons] at next ⊢
    rw [next]
    simp only [Cluster.setPeerStatus, Cluster.putStatus, List.map_map]
    rfl

theorem applyAll_secrets (c : Cluster) (writes : List WireguardPeer) :
    (c.applyAll writes).secrets = c.secrets := by
  induction writes generalizing c with
  | nil => rfl
  | cons write rest ih => exact ih (c.setPeerStatus write)

theorem applyAll_wireguards (c : Cluster) (writes : List WireguardPeer) :
    (c.applyAll writes).wireguards = c.wireguards := by
  induction writes generalizing c with
  | nil => rfl
  | cons write rest ih => exact ih (c.setPeerStatus write)

theorem applyAll_append (c : Cluster) (first second : List WireguardPeer) :
    c.applyAll (first ++ second) = (c.applyAll first).applyAll second := by
  simp [Cluster.applyAll]

theorem applyWrites_cons (write : WireguardPeer) (rest : List WireguardPeer)
    (peer : WireguardPeer) :
    applyWrites (write :: rest) peer =
      applyWrites rest (if peer.key = write.key then { peer with status := write.status }
        else peer) := rfl

@[simp] theorem applyWrites_object (writes : List WireguardPeer) (peer : WireguardPeer) :
    (applyWrites writes peer).object = peer.object := by
  induction writes generalizing peer with
  | nil => rfl
  | cons write rest ih =>
    rw [applyWrites_cons, ih]
    split <;> rfl

theorem applyWrites_of_absent (absent : ∀ write ∈ writes, write.key ≠ peer.key) :
    applyWrites writes peer = peer := by
  induction writes with
  | nil => rfl
  | cons write rest ih =>
    rw [applyWrites_cons, if_neg (Ne.symm (absent write List.mem_cons_self))]
    exact ih fun other member => absent other (List.mem_cons_of_mem _ member)

/-- With each peer written at most once, the write decides. -/
theorem applyWrites_of_mem (once : (writes.map (·.key)).Nodup) (member : write ∈ writes)
    (named : write.key = peer.key) :
    applyWrites writes peer = { peer with status := write.status } := by
  induction writes generalizing peer with
  | nil => contradiction
  | cons first rest ih =>
    rw [List.map_cons, List.nodup_cons] at once
    rw [applyWrites_cons]
    rcases List.mem_cons.mp member with rfl | later
    · rw [if_pos named.symm]
      apply applyWrites_of_absent
      intro other inRest same
      exact once.1 (List.mem_map.mpr ⟨other, inRest, same.trans named.symm⟩)
    · have apart : peer.key ≠ first.key := by
        intro same
        exact once.1 (List.mem_map.mpr ⟨write, later, named.trans same⟩)
      rw [if_neg apart]
      exact ih once.2 later named

end Writes

section Reliable
variable {faulty : Call → Prop} {c d e : Cluster} {cidr4 : String}

/-- No peer status write fails for a cause outside the stored objects. -/
def Reliable (faulty : Call → Prop) : Prop := ∀ write, ¬ faulty (.updatePeerStatus write)

theorem write_lands (reliable : Reliable faulty)
    (answered : clusterEnv faulty c (.updatePeerStatus write) answer d)
    (stored : ∃ peer ∈ c.peers, peer.key = write.key) :
    answer = .ok () ∧ d = c.setPeerStatus write := by
  cases answer with
  | ok reply =>
    cases answered with
    | updatePeerStatus _ => exact ⟨rfl, rfl⟩
  | error err =>
    rcases answered with ⟨refused, -⟩ | ⟨fails, -⟩
    · obtain ⟨peer, member, same⟩ := stored
      cases refused with
      | updatePeerStatus missing _ => exact absurd same (missing peer member)
    · exact absurd fails (reliable write)

/-- The first call of such a run is a write that lands. -/
theorem write_first (reliable : Reliable faulty)
    {next : Answer (.updatePeerStatus write) → Reconciler α} {outcome : Outcome ApiError α}
    (run : Trace (clusterEnv faulty) c (.call (.updatePeerStatus write) next) events outcome e)
    (whole : outcome ≠ .cut) (stored : ∃ peer ∈ c.peers, peer.key = write.key) :
    ∃ rest, events = landed write :: rest ∧
      Trace (clusterEnv faulty) (c.setPeerStatus write) (next (.ok ())) rest outcome e := by
  obtain ⟨answer, d, rest, answered, after, rfl⟩ := run.call_inv whole
  obtain ⟨rfl, rfl⟩ := write_lands reliable answered stored
  exact ⟨rest, rfl, after⟩

theorem mark_reliable (reliable : Reliable faulty) {next : Unit → Reconciler α}
    {outcome : Outcome ApiError α}
    (run : Trace (clusterEnv faulty) c
      (markPeerNotReady peer nr >>= fun result => orSkip result >>= next) events outcome e)
    (whole : outcome ≠ .cut) (stored : ∃ p ∈ c.peers, p.key = peer.key) :
    ∃ rest, events = (notReadyWrite peer nr).toList.map landed ++ rest ∧
      Trace (clusterEnv faulty) (c.applyAll (notReadyWrite peer nr).toList)
        (next ()) rest outcome e := by
  unfold markPeerNotReady at run
  unfold notReadyWrite
  split
  · rename_i same
    rw [if_pos same] at run
    exact ⟨events, rfl, run⟩
  · rename_i differs
    rw [if_neg differs] at run
    simp only [ask_bind, call_bind] at run
    obtain ⟨rest, rfl, after⟩ := write_first reliable run whole stored
    exact ⟨rest, rfl, after⟩

theorem stored_applyAll {name : NamespacedName} (stored : ∃ peer ∈ c.peers, peer.key = name)
    (writes : List WireguardPeer) : ∃ peer ∈ (c.applyAll writes).peers, peer.key = name := by
  obtain ⟨peer, member, rfl⟩ := stored
  rw [applyAll_peers]
  exact ⟨_, List.mem_map_of_mem member, key_of_object (applyWrites_object writes peer)⟩

theorem markEach_reliable (reliable : Reliable faulty) {refusals : List (WireguardPeer × NotReady)}
    (stored : ∀ entry ∈ refusals, ∃ p ∈ c.peers, p.key = entry.1.key)
    (run : Trace (clusterEnv faulty) c (markEach refusals) events outcome e)
    (whole : outcome ≠ .cut) :
    outcome = .done () ∧ e =
      c.applyAll (refusals.filterMap fun (peer, nr) => notReadyWrite peer nr) ∧
      events = (refusals.filterMap fun (peer, nr) => notReadyWrite peer nr).map landed := by
  induction refusals generalizing c events with
  | nil =>
    obtain ⟨rfl, rfl, rfl⟩ := run.done_inv whole
    exact ⟨rfl, rfl, rfl⟩
  | cons entry rest ih =>
    obtain ⟨peer, nr⟩ := entry
    obtain ⟨later, rfl, after⟩ := mark_reliable reliable run whole (stored _ List.mem_cons_self)
    obtain ⟨rfl, rfl, rfl⟩ := ih (fun other member =>
      stored_applyAll (stored other (List.mem_cons_of_mem _ member)) _) after
    cases written : notReadyWrite peer nr with
    | none =>
      simp only [List.filterMap_cons, written]
      exact ⟨trivial, rfl, rfl⟩
    | some write =>
      simp only [List.filterMap_cons, written]
      exact ⟨trivial, rfl, rfl⟩

theorem carryOut_reliable (reliable : Reliable faulty) {allotments : List Allotment}
    (stored : ∀ allotment ∈ allotments, ∃ p ∈ c.peers, p.key = allotment.peer.key)
    (run : Trace (clusterEnv faulty) c (carryOut cidr4 allotments) events outcome e)
    (whole : outcome ≠ .cut) :
    outcome = .done (allotments.filterMap Allotment.served) ∧
      e = c.applyAll (allotments.filterMap (·.write cidr4)) ∧
      events = (allotments.filterMap (·.write cidr4)).map landed := by
  induction allotments generalizing c e events outcome with
  | nil =>
    obtain ⟨rfl, rfl, rfl⟩ := run.done_inv whole
    exact ⟨rfl, rfl, rfl⟩
  | cons allotment rest ih =>
    have here := stored allotment List.mem_cons_self
    have others : ∀ writes, ∀ other ∈ rest, ∃ p ∈ (c.applyAll writes).peers,
        p.key = other.peer.key :=
      fun writes other member => stored_applyAll
        (stored other (List.mem_cons_of_mem _ member)) writes
    -- The rest of the loop, which this peer's result is put in front of.
    have returning : ∀ {d : Cluster} {events : List (Event Call Answer)} {peer : WireguardPeer},
        (∀ other ∈ rest, ∃ p ∈ d.peers, p.key = other.peer.key) →
        Trace (clusterEnv faulty) d
          (carryOut cidr4 rest >>= fun allocated => pure (peer :: allocated)) events outcome e →
        outcome = .done (peer :: rest.filterMap Allotment.served) ∧
          e = d.applyAll (rest.filterMap (·.write cidr4)) ∧
          events = (rest.filterMap (·.write cidr4)).map landed := by
      intro d events peer known trace
      obtain ⟨allocated, t, first, last, body, ending, rfl⟩ := trace.bind_inv whole fun failed => by
        simpa using (ih known failed (by simp)).1
      obtain ⟨returned, rfl, rfl⟩ := ih known body (by simp)
      obtain ⟨rfl, rfl, rfl⟩ := ending.done_inv whole
      obtain rfl := Outcome.done.inj returned
      exact ⟨rfl, rfl, by simp⟩
    cases allotment with
    | exhausted peer =>
      obtain ⟨later, rfl, after⟩ := mark_reliable reliable run whole here
      obtain ⟨rfl, rfl, rfl⟩ := ih (others _) after whole
      cases written : notReadyWrite peer (addressPoolExhausted cidr4) with
      | none =>
        rw [List.filterMap_cons_none
          (show (Allotment.exhausted peer).write cidr4 = none from written)]
        exact ⟨rfl, rfl, rfl⟩
      | some write =>
        rw [List.filterMap_cons_some
          (show (Allotment.exhausted peer).write cidr4 = some write from written)]
        exact ⟨rfl, rfl, rfl⟩
    | unchanged peer => exact returning (others []) run
    | fresh peer =>
      obtain ⟨later, rfl, after⟩ := write_first reliable run whole here
      obtain ⟨rfl, rfl, rfl⟩ := returning (others [peer]) after
      exact ⟨rfl, rfl, rfl⟩
    | renewed peer =>
      obtain ⟨later, rfl, after⟩ := write_first reliable run whole here
      obtain ⟨rfl, rfl, rfl⟩ := returning (others [peer]) after
      exact ⟨rfl, rfl, rfl⟩

/-- All writes of the plan land, and all it serves is returned. -/
theorem execute_reliable (reliable : Reliable faulty) {p : Plan}
    (refused : ∀ entry ∈ p.refusals, ∃ q ∈ c.peers, q.key = entry.1.key)
    (allotted : ∀ allotment ∈ p.allotments, ∃ q ∈ c.peers, q.key = allotment.peer.key)
    (run : Trace (clusterEnv faulty) c (execute cidr4 p) events outcome e)
    (whole : outcome ≠ .cut) :
    outcome = .done p.served ∧ e = c.applyAll (p.writes cidr4) ∧
      events = (p.writes cidr4).map landed := by
  obtain ⟨_, d, first, last, marking, allotting, rfl⟩ := run.bind_inv whole fun failed => by
    simpa using (markEach_reliable reliable refused failed (by simp)).1
  obtain ⟨-, rfl, rfl⟩ := markEach_reliable reliable refused marking (by simp)
  obtain ⟨rfl, rfl, rfl⟩ := carryOut_reliable reliable
    (fun allotment member => stored_applyAll (allotted allotment member) _) allotting whole
  exact ⟨rfl, (applyAll_append _ _ _).symm, (List.map_append).symm⟩

end Reliable
end TunnelOperator.Controller
