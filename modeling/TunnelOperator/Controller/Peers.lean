import Mathlib.Data.List.Sort
import TunnelOperator.Ipam
import TunnelOperator.Library.Election
import TunnelOperator.Standard.Base64

/-! internal/controller/peers.go: the rules that decide about one peer, or about a
list of peers, without talking to the apiserver. -/
namespace TunnelOperator.Controller
open Netip Strconv

def reasonPublicKeyMissing : String := "PublicKeyMissing"
def reasonWireguardNotFound : String := "WireguardNotFound"
def reasonNamespaceNotAllowed : String := "NamespaceNotAllowed"
def reasonAddressPoolExhausted : String := "AddressPoolExhausted"
def reasonInvalidPublicKey : String := "InvalidPublicKey"
def reasonAddressConflict : String := "AddressConflict"
def reasonPublicKeyConflict : String := "PublicKeyConflict"

/-- A peer state the server cannot admit: the summary fields and the Ready=False
condition the operator records for it. -/
structure NotReady where
  status : String
  message : String
  reason : String
  conditionMessage : String
  deriving DecidableEq, Repr

def publicKeyMissing : NotReady where
  status := pending
  message := "Waiting for spec.publicKey"
  reason := reasonPublicKeyMissing
  conditionMessage := "spec.publicKey is empty, so the server cannot admit this peer"

def invalidPublicKey : NotReady where
  status := error
  message := "spec.publicKey is not a valid WireGuard key"
  reason := reasonInvalidPublicKey
  conditionMessage :=
    "spec.publicKey is not a base64-encoded 32-byte WireGuard key, " ++
      "so the server cannot admit this peer"

/-- A key is canonical when it parses and prints back as itself. -/
def admissionProblem (peer : WireguardPeer) : Option NotReady :=
  let key := peer.spec.publicKey
  if key = "" then some publicKeyMissing
  else match Wgtypes.parseKey key with
    | none => some invalidPublicKey
    | some parsed => if parsed.string ≠ key then some invalidPublicKey else none

def gatewayKey (peer : WireguardPeer) : NamespacedName where
  nameSpace := if peer.spec.wireguardNamespace = "" then peer.nameSpace
    else peer.spec.wireguardNamespace
  name := peer.spec.wireguardRef

def namespaceNotAllowed (wg : Wireguard) (peer : WireguardPeer) : Option NotReady :=
  match wg.spec.allowedNamespaces with
  | none => none
  | some allowed =>
    if allowed.from_ ≠ .same ∨ peer.nameSpace = wg.nameSpace then none
    else some {
      status := error
      message := "Wireguard " ++ wg.nameSpace ++ "/" ++ wg.name ++
        " does not accept peers from namespace " ++ peer.nameSpace
      reason := reasonNamespaceNotAllowed
      conditionMessage := "Wireguard " ++ wg.nameSpace ++ "/" ++ wg.name ++
        " sets spec.allowedNamespaces.from to Same, so it admits only peers in namespace " ++
          wg.nameSpace }

def validatePeerCIDR (cidr : String) : Except String Unit :=
  match parsePrefix cidr with
  | .error message => .error ("peerCIDR " ++ quote cidr ++ " is not a CIDR: " ++ message)
  | .ok p =>
    if !p.addr.is4 then .error ("peerCIDR " ++ quote cidr ++ " is not an IPv4 prefix")
    else if p ≠ p.masked then
      .error ("peerCIDR " ++ quote cidr ++ " has host bits set; use " ++ p.masked.string)
    else if 30 < p.bits then
      .error ("peerCIDR " ++ quote cidr ++ " leaves no address for a peer; use /30 or shorter")
    else .ok ()

def wireguardNotFound (ref nameSpace : String) : NotReady where
  status := pending
  message := "Waiting for wireguard resource '" ++ ref ++ "' to be created"
  reason := reasonWireguardNotFound
  conditionMessage := "no Wireguard named " ++ ref ++ " exists in namespace " ++ nameSpace

def addressPoolExhausted (cidr : String) : NotReady where
  status := pending
  message := "No free address in " ++ cidr
  reason := reasonAddressPoolExhausted
  conditionMessage := "peerCIDR " ++ cidr ++ " has no free address for this peer"

/-- What state.json keeps of a peer. -/
def rendered (peer : WireguardPeer) : WireguardPeer where
  name := peer.name
  nameSpace := peer.nameSpace
  generation := 0
  creationTimestamp := 0
  spec := ⟨peer.spec.publicKey, peer.spec.wireguardRef, ""⟩
  status := { WireguardPeerStatus.empty with address := peer.status.address }

/-- By name, then by namespace. -/
def NotAfter (a b : WireguardPeer) : Prop :=
  (compare a.name b.name).then (compare a.nameSpace b.nameSpace) ≠ .gt

instance : DecidableRel NotAfter := fun _ _ => inferInstanceAs (Decidable (_ ≠ _))

def desiredState (wg : Wireguard) (privateKey : String) (peers : List WireguardPeer) : State where
  server :=
    { name := wg.name, nameSpace := wg.nameSpace, generation := 0, status := .empty
      spec := { wg.spec with gluetun := .empty } }
  serverPrivateKey := privateKey
  peers := (peers.map rendered).insertionSort NotAfter

def peerStatusMatches (peer : WireguardPeer) (nr : NotReady) : Bool :=
  match findStatusCondition peer.status.conditions conditionReady with
  | none => false
  | some c =>
    peer.status.status = nr.status && peer.status.address = "" && peer.status.endpoint = "" &&
      peer.status.serverPublicKey = "" && peer.status.localCIDRs.isEmpty &&
      peer.status.message = nr.message && c.status = .false && c.reason = nr.reason &&
      c.message = nr.conditionMessage && c.observedGeneration = peer.generation

/-- The status markPeerNotReady records: a not-ready peer releases its address and
the gateway identity. -/
def notReadyStatus (peer : WireguardPeer) (nr : NotReady) : WireguardPeerStatus where
  status := nr.status
  message := nr.message
  address := ""
  endpoint := ""
  serverPublicKey := ""
  localCIDRs := []
  conditions := setStatusCondition peer.status.conditions
    { type := conditionReady, status := .false, reason := nr.reason, message := nr.conditionMessage
      observedGeneration := peer.generation }

def skipPeerWrite (err : ApiError) : Bool := err.isConflict || err.isNotFound

def addressConflict (address winner : String) : NotReady where
  status := pending
  message := "Address " ++ address ++ " is held by peer " ++ winner ++ "; waiting for a new address"
  reason := reasonAddressConflict
  conditionMessage := "Address " ++ address ++ " is held by peer " ++ winner ++
    "; waiting for a new address"

def publicKeyConflict (winner : String) : NotReady where
  status := pending
  message := "Public key is held by peer " ++ winner ++ "; waiting for it to be released"
  reason := reasonPublicKeyConflict
  conditionMessage := "spec.publicKey is already held by peer " ++ winner ++
    " of this Wireguard, so this peer cannot be admitted"

def addressUsable (addr cidr4 : String) : Bool :=
  match parseAddr addr, parsePrefix cidr4 with
  | .ok a, .ok p => p.masked.contains a && a ≠ p.masked.addr && p.masked.addr.next ≠ some a
  | _, _ => false

structure ConflictLoser where
  peer : WireguardPeer
  winner : String
  deriving DecidableEq, Repr

/-- The oldest creationTimestamp, then the lexically smaller name, then the smaller
namespace. -/
def older (a b : WireguardPeer) : Bool :=
  ((compare a.creationTimestamp b.creationTimestamp).then
    ((compare a.name b.name).then (compare a.nameSpace b.nameSpace))) = .lt

/-- The value a peer disputes, if it has one. -/
def disputed (value : WireguardPeer → String) (peer : WireguardPeer) : Option String :=
  if value peer = "" then none else some (value peer)

/-- Both dedupe functions of the source: one holder for each value that is not empty,
chosen by `beats`. -/
def dedupe (value : WireguardPeer → String) (beats : WireguardPeer → WireguardPeer → Bool)
    (peers : List WireguardPeer) : List WireguardPeer × List ConflictLoser :=
  (Election.keep (disputed value) beats peers,
    (Election.losers (disputed value) beats peers).map fun (peer, holder) =>
      ⟨peer, holder.key.string⟩)

def dedupeAddresses (peers : List WireguardPeer) : List WireguardPeer × List ConflictLoser :=
  dedupe (·.status.address) older peers

/-- The keys state.json lists, by peer; a peer it does not list has the empty key, as
in a Go map. -/
abbrev ListedKeys := NamespacedName → String

def listed (current : ListedKeys) (peer : WireguardPeer) : Bool :=
  current peer.key = peer.spec.publicKey

/-- A peer the server's current state lists under its key comes before one it does
not; between two of a kind the older one does. -/
def beats (current : ListedKeys) (a b : WireguardPeer) : Bool :=
  if listed current a ≠ listed current b then listed current a else older a b

def dedupePublicKeys (peers : List WireguardPeer) (current : ListedKeys) :
    List WireguardPeer × List ConflictLoser :=
  dedupe (·.spec.publicKey) (beats current) peers

end TunnelOperator.Controller
