import TunnelOperator.Api
import TunnelOperator.Standard.Cidr

/-! internal/ipam: the address allocator of the peers. -/
namespace TunnelOperator.Ipam
open Netip Net

def defaultPeerCIDR4 : String := "10.8.0.0/24"

/-- IP.String of the net package, which prints an IPv4-mapped address as IPv4. -/
def ipString (ip : Addr) : String := ip.unmap.string

/-- Every address of the network once, in ascending order. -/
def addresses (net : IPNet) : List Addr :=
  match net.addr with
  | .v4 base => (List.range' 0 (2 ^ (32 - net.bits))).map fun i => .v4 (base + BitVec.ofNat 32 i)
  | .v6 base zone => (List.range' 0 (2 ^ (128 - net.bits))).map fun i => .v6
    (base + BitVec.ofNat 128 i) zone

def isUsed (ip : String) (usedIPs : List String) : Bool := usedIPs.contains ip

/-- AllocateIP with what the generator of the ipnetgen package makes of a network. -/
def allocateFrom (generate : IPNet → List Addr) (cidr : String) (usedIPs : List String) :
    Except String String :=
  match parseCIDR cidr with
  | .error message => .error ("failed to parse CIDR " ++ cidr ++ ": " ++ message)
  | .ok net =>
    match ((generate net).map ipString).find? fun ip => !isUsed ip usedIPs with
    | some ip => .ok ip
    | none => .error ("no available IP found in " ++ cidr)

def allocateIP : String → List String → Except String String := allocateFrom addresses

/-- The network address and the first host. The zero Addr, which follows the last
address of a family, prints as "invalid IP". -/
def deriveReservedIPs (cidr : String) : List String :=
  if cidr = "" then []
  else match parsePrefix cidr with
    | .error _ => []
    | .ok p =>
      let network := p.masked.addr
      [network.string, (network.next.map Addr.string).getD "invalid IP"]

def getUsedIPs (cidr : String) (peers : List WireguardPeer) : List String :=
  deriveReservedIPs cidr ++ (peers.map (·.status.address)).filter (· ≠ "")

/-! A peer range the operator accepts, as a value that carries what was checked. -/

structure PeerCIDR where
  base : BitVec 32
  bits : Nat
  roomy : bits ≤ 30
  canonical : Prefix.maskBits base bits = base
  deriving DecidableEq

namespace PeerCIDR

def net (range : PeerCIDR) : Prefix :=
  ⟨.v4 range.base, range.bits, Nat.le_trans range.roomy (by simp [Addr.bitLen])⟩

/-- Inside the range, and neither its network address nor its first host. -/
def Allocatable (range : PeerCIDR) (value : BitVec 32) : Prop :=
  range.net.contains (.v4 value) = true ∧ value ≠ range.base ∧ value ≠ range.base + 1

instance (range : PeerCIDR) (value : BitVec 32) : Decidable (range.Allocatable value) :=
  inferInstanceAs (Decidable (_ ∧ _ ∧ _))

/-- The text a peer's status.address may hold on this server. -/
def Holds (range : PeerCIDR) (address : String) : Prop :=
  ∃ value, address = (Addr.v4 value).string ∧ range.Allocatable value

end PeerCIDR

/-- What ipnetgen promises of such a range: every address once, in ascending order. -/
structure Ipnetgen (generate : IPNet → List Addr) : Prop where
  ascending (range : PeerCIDR) :
    ∃ values : List (BitVec 32), generate range.net = values.map Addr.v4 ∧ values.Pairwise (· < ·)
  every (range : PeerCIDR) (value : BitVec 32) :
    .v4 value ∈ generate range.net ↔ range.net.contains (.v4 value) = true

/-- `cidr` is the text of `range`. -/
def Reads (cidr : String) (range : PeerCIDR) : Prop := parsePrefix cidr = .ok range.net

end TunnelOperator.Ipam
