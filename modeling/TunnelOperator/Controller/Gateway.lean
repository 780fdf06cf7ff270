import TunnelOperator.Controller.Peers
import TunnelOperator.Resources

/-! internal/controller/gateway.go: the checks of a Wireguard's spec and of what the
cluster assigned to it. -/
namespace TunnelOperator.Controller
open Netip Strconv Resources

def reasonInvalidPeerCIDR : String := "InvalidPeerCIDR"
def reasonProbeAddressInPeerCIDR : String := "ProbeAddressInPeerCIDR"
def reasonInvalidLocalCIDRs : String := "InvalidLocalCIDRs"
def reasonPeerCIDROverlapsLocalCIDRs : String := "PeerCIDROverlapsLocalCIDRs"
def reasonProbeAddressInLocalCIDRs : String := "ProbeAddressInLocalCIDRs"
def reasonClusterIPOutsideLocalCIDRs : String := "ClusterIPOutsideLocalCIDRs"
def reasonReservedGluetunEnv : String := "ReservedGluetunEnv"
def reasonDeploymentNotReady : String := "DeploymentNotReady"

/-- The checks that walk localCIDRs and name the first entry that fails, with its
index. -/
def firstProblem (problem : Nat → String → Option String) (cidrs : List String) :
    Except String Unit :=
  match cidrs.zipIdx.findSome? fun (c, i) => problem i c with
  | some message => .error message
  | none => .ok ()

def localCIDRProblem (i : Nat) (c : String) : Option String :=
  let entry := "localCIDRs[" ++ Nat.repr i ++ "] " ++ quote c
  match parsePrefix c with
  | .error message => some (entry ++ " is not a CIDR: " ++ message)
  | .ok p =>
    if !p.addr.is4 then some (entry ++ " is not an IPv4 prefix")
    else if p ≠ p.masked then some (entry ++ " has host bits set; use " ++ p.masked.string)
    else none

def validateLocalCIDRs (cidrs : List String) : Except String Unit :=
  firstProblem localCIDRProblem cidrs

/-- An unparseable prefix is the zero Prefix, which overlaps nothing. -/
def prefixesOverlap (a b : String) : Bool :=
  match parsePrefix a, parsePrefix b with
  | .ok p, .ok o => p.overlaps o
  | _, _ => false

/-- An unparseable prefix is the zero Prefix, which contains nothing. -/
def prefixContains (cidr : String) (a : Addr) : Bool :=
  match parsePrefix cidr with
  | .ok p => p.contains a
  | .error _ => false

def peerCIDROverlap (peerCIDR : String) (localCIDRs : List String) : Except String Unit :=
  firstProblem (fun i c =>
    if prefixesOverlap peerCIDR c then
      some ("peerCIDR " ++ peerCIDR ++ " overlaps localCIDRs[" ++ Nat.repr i ++ "] " ++ c ++
        "; peer addresses must lie outside the cluster's networks")
    else none) localCIDRs

/-- resources.PeerProbeAddress, parsed. -/
def probeAddr : Addr := .v4 0xc0000201#32

example : parseAddr peerProbeAddress = .ok probeAddr := by decide

def probeAddressInLocalCIDRs (localCIDRs : List String) : Except String Unit :=
  firstProblem (fun i c =>
    if prefixContains c probeAddr then
      some ("localCIDRs[" ++ Nat.repr i ++ "] " ++ c ++ " contains " ++ peerProbeAddress ++
        ", the address the gateway's readiness check routes through the tunnel; it is reserved " ++
        "for documentation (RFC 5737), so no cluster network should hold it")
    else none) localCIDRs

def probeAddressInPeerCIDR (peerCIDR : String) : Except String Unit :=
  if prefixContains peerCIDR probeAddr then
    .error ("peerCIDR " ++ peerCIDR ++ " contains " ++ peerProbeAddress ++
      ", the address the gateway's readiness check routes through the tunnel; it is reserved " ++
      "for documentation (RFC 5737), so choose a peer range that does not hold it")
  else .ok ()

def clusterIPOutside (service clusterIP : String) (localCIDRs : List String) : Except String Unit :=
  let inside := match parseAddr clusterIP with
    | .ok ip => localCIDRs.any fun c => prefixContains c ip
    | .error _ => false
  if inside then .ok ()
  else .error ("Service " ++ service ++ " has ClusterIP " ++ clusterIP ++
    ", which is in no localCIDRs entry; add the cluster's Service CIDR to localCIDRs")

def isReservedGluetunEnv (name : String) : Bool :=
  (reservedGluetunEnv []).any (·.name = name)

def reservedInEnv (env : List EnvVar) : String :=
  ((env.find? fun e => isReservedGluetunEnv e.name).map (·.name)).getD ""

/-- The keys are tried in sorted order, so the name reported does not depend on the
order of a Go map. -/
def reservedInKeys (namePrefix : String) (keys : List String) : String :=
  (((keys.insertionSort (compare · · ≠ .gt)).find? fun k =>
    isReservedGluetunEnv (namePrefix ++ k)).map (namePrefix ++ ·)).getD ""

def rolloutProblem (dep : Deployment) : String :=
  let want := dep.replicas.getD 1
  if dep.observedGeneration < dep.generation then
    "Deployment " ++ dep.name ++ " is not rolled out: generation " ++ toString dep.generation ++
      " not yet observed"
  else if dep.readyReplicas ≠ want ∨ dep.updatedReplicas ≠ want then
    "Deployment " ++ dep.name ++ " is not rolled out: " ++ toString dep.readyReplicas ++ "/" ++
      toString want ++ " ready, " ++ toString dep.updatedReplicas ++ "/" ++
        toString want ++ " updated"
  else ""

def effectivePeerCIDR4 (wg : Wireguard) : String :=
  if wg.spec.peerCIDR ≠ "" then wg.spec.peerCIDR else Ipam.defaultPeerCIDR4

end TunnelOperator.Controller
