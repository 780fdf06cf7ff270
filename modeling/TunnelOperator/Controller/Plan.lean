import TunnelOperator.Controller.Reconcile

/-! What reconcilePeers decides, apart from what it writes. No outcome of a status
write changes a decision of the same pass, so a pass is a plan, computed from the
listed keys and the list of peers, and the writes that carry the plan out. -/
namespace TunnelOperator.Controller
open Program

/-- What allocatePeers does about one peer: no address is left for it; it is written
with a new address; it is written with the address it has; it needs no write. -/
inductive Allotment where
  | exhausted (peer : WireguardPeer)
  | fresh (peer : WireguardPeer)
  | renewed (peer : WireguardPeer)
  | unchanged (peer : WireguardPeer)
  deriving DecidableEq

def allot (cidr4 : String) : List String → List WireguardPeer → List Allotment
  | _, [] => []
  | usedIps4, peer :: rest =>
    if peer.status.address = "" then
      match Ipam.allocateIP cidr4 usedIps4 with
      | .error _ => .exhausted peer :: allot cidr4 usedIps4 rest
      | .ok ip => .fresh (readied (withAddress peer ip)) :: allot cidr4 (usedIps4 ++ [ip]) rest
    else if settledReady peer then .unchanged peer :: allot cidr4 usedIps4 rest
    else .renewed (readied peer) :: allot cidr4 usedIps4 rest

def carryOut (cidr4 : String) : List Allotment → Reconciler (List WireguardPeer)
  | [] => return []
  | .exhausted peer :: rest => do
    orSkip (← markPeerNotReady peer (addressPoolExhausted cidr4))
    carryOut cidr4 rest
  | .unchanged peer :: rest => do
    let allocated ← carryOut cidr4 rest
    return peer :: allocated
  | .fresh peer :: rest => do
    match ← ask (.updatePeerStatus peer) with
    | .error e => if skipPeerWrite e then carryOut cidr4 rest else .fail e
    | .ok _ => do
      let allocated ← carryOut cidr4 rest
      return peer :: allocated
  | .renewed peer :: rest => do
    match ← ask (.updatePeerStatus peer) with
    | .error e =>
      if skipPeerWrite e then do
        let allocated ← carryOut cidr4 rest
        return peer :: allocated
      else .fail e
    | .ok _ => do
      let allocated ← carryOut cidr4 rest
      return peer :: allocated

theorem allocateEach_eq (cidr4 : String) (usedIps4 : List String) (peers : List WireguardPeer) :
    allocateEach cidr4 usedIps4 peers = carryOut cidr4 (allot cidr4 usedIps4 peers) := by
  induction peers generalizing usedIps4 with
  | nil => rfl
  | cons peer rest ih =>
    unfold allocateEach allot
    split
    · cases Ipam.allocateIP cidr4 usedIps4 with
      | error message => simp only [carryOut, ih]
      | ok ip =>
        simp only [ih]
        rfl
    · split
      · simp only [carryOut, ih]
      · simp only [ih]
        rfl

section
variable (wg : Wireguard) (current : ListedKeys) (peers : List WireguardPeer)

def admissible : List WireguardPeer := peers.filter fun peer => (refusal wg peer).isNone

def refused : List (WireguardPeer × NotReady) :=
  peers.filterMap fun peer => (refusal wg peer).map (peer, ·)

def keyHolders : List WireguardPeer := (dedupePublicKeys (admissible wg peers) current).1

def keyConflicts : List (WireguardPeer × NotReady) :=
  (dedupePublicKeys (admissible wg peers) current).2.map fun l =>
    (l.peer, publicKeyConflict l.winner)

def cleared : List WireguardPeer :=
  (keyHolders wg current peers).map (clearUnusable (effectivePeerCIDR4 wg))

def candidates : List WireguardPeer := (dedupeAddresses (cleared wg current peers)).1

def addressConflicts : List (WireguardPeer × NotReady) :=
  (dedupeAddresses (cleared wg current peers)).2.map fun l =>
    (l.peer, addressConflict l.peer.status.address l.winner)

structure Plan where
  refusals : List (WireguardPeer × NotReady)
  allotments : List Allotment

def plan : Plan where
  refusals := refused wg peers ++ keyConflicts wg current peers ++ addressConflicts wg current peers
  allotments := allot (effectivePeerCIDR4 wg)
    (Ipam.getUsedIPs (effectivePeerCIDR4 wg) (candidates wg current peers))
    (candidates wg current peers)

end

/-- The write markPeerNotReady issues, if the peer does not record `nr` already. -/
def notReadyWrite (peer : WireguardPeer) (nr : NotReady) : Option WireguardPeer :=
  if peerStatusMatches peer nr then none else some { peer with status := notReadyStatus peer nr }

def Allotment.peer : Allotment → WireguardPeer
  | .exhausted peer => peer
  | .fresh peer => peer
  | .renewed peer => peer
  | .unchanged peer => peer

def Allotment.write (cidr4 : String) : Allotment → Option WireguardPeer
  | .exhausted peer => notReadyWrite peer (addressPoolExhausted cidr4)
  | .fresh peer => some peer
  | .renewed peer => some peer
  | .unchanged _ => none

/-- The peer as it is returned when its write succeeds. -/
def Allotment.served : Allotment → Option WireguardPeer
  | .exhausted _ => none
  | .fresh peer => some peer
  | .renewed peer => some peer
  | .unchanged peer => some peer

/-- The peer as it is returned even when its write is skipped. -/
def Allotment.held : Allotment → Option WireguardPeer
  | .exhausted _ => none
  | .fresh _ => none
  | .renewed peer => some peer
  | .unchanged peer => some peer

namespace Plan

def writes (cidr4 : String) (p : Plan) : List WireguardPeer :=
  p.refusals.filterMap (fun (peer, nr) => notReadyWrite peer nr) ++
    p.allotments.filterMap (·.write cidr4)

def served (p : Plan) : List WireguardPeer := p.allotments.filterMap Allotment.served

def held (p : Plan) : List WireguardPeer := p.allotments.filterMap Allotment.held

end Plan

theorem markEach_append (first second : List (WireguardPeer × NotReady)) :
    markEach (first ++ second) = (markEach first >>= fun _ => markEach second) := by
  induction first with
  | nil => rfl
  | cons entry rest ih =>
    obtain ⟨peer, nr⟩ := entry
    simp only [List.cons_append, markEach, ih, bind_assoc]

theorem admitPeers_eq (wg : Wireguard) (peers : List WireguardPeer) :
    admitPeers wg peers = (markEach (refused wg peers) >>= fun _ => pure
      (admissible wg peers)) := by
  induction peers with
  | nil => rfl
  | cons peer rest ih =>
    unfold admitPeers
    cases problem : refusal wg peer with
    | none =>
      have kept : admissible wg (peer :: rest) = peer :: admissible wg rest := by
        simp [admissible, problem]
      have passed : refused wg (peer :: rest) = refused wg rest := by simp [refused, problem]
      simp only [ih, kept, passed, bind_assoc, pure_eq, done_bind]
    | some nr =>
      have kept : admissible wg (peer :: rest) = admissible wg rest := by simp [admissible, problem]
      have marked : refused wg (peer :: rest) = (peer, nr) :: refused wg rest := by
        simp [refused, problem]
      simp only [ih, kept, marked, markEach, bind_assoc]

def execute (cidr4 : String) (p : Plan) : Reconciler (List WireguardPeer) := do
  markEach p.refusals
  carryOut cidr4 p.allotments

/-- A pass over the peers reads, plans and carries the plan out. -/
theorem reconcilePeers_eq (req : NamespacedName) (wg : Wireguard) :
    reconcilePeers req wg = (do
      let current ← admittedKeys wg
      let peers ← getWireguardPeers req
      execute (effectivePeerCIDR4 wg) (plan wg current peers)) := by
  simp only [reconcilePeers, admitPeers_eq, execute, plan, markEach_append, bind_assoc, pure_eq,
    done_bind, releaseLosers, allocatePeers, allocateEach_eq]
  rfl

end TunnelOperator.Controller
