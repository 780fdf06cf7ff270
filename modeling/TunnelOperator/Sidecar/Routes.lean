import TunnelOperator.Library.Program
import TunnelOperator.Library.RouteTable
import TunnelOperator.Standard.Cidr

/-! internal/sidecar/routes.go and routes_linux.go: how the client moves the pod's main
routing table to wg0, as a program of netlink calls. -/
namespace TunnelOperator.Sidecar
open Netip Net Program

def routeProtocol : Nat := 151

def scopeUniverse : Nat := 0
def scopeLink : Nat := 253

def defaultDst : Prefix := .everyIPv4
def defaultDst6 : Prefix := ⟨.v6 0 "", 0, Nat.zero_le _⟩

structure Route where
  dst : Prefix
  gw : Option Addr
  linkIndex : Nat
  priority : Nat
  protocol : Nat
  scope : Nat
  deriving DecidableEq

structure RoutePlan where
  gw : Option Addr
  gwLink : Nat
  localCIDRs : List Prefix
  stale : List Route
  deriving DecidableEq

def isDefault (r : Route) : Bool := r.dst.bits = 0

/-- A default route off wg0 that has a gateway. -/
def cniDefault (wgIndex : Nat) (r : Route) : Bool :=
  isDefault r && r.linkIndex ≠ wgIndex && r.gw.isSome

/-- A route this client installed that has a gateway. -/
def ownGateway (r : Route) : Bool := r.protocol = routeProtocol && r.gw.isSome

def isStale (wgIndex : Nat) (localCIDRs : List Prefix) (r : Route) : Bool :=
  if isDefault r then r.linkIndex ≠ wgIndex
  else r.protocol = routeProtocol && r.dst ∉ localCIDRs

/-- The route the gateway is read from. -/
def gatewayRoute (listed : List Route) (wgIndex : Nat) : Option Route :=
  (listed.find? (cniDefault wgIndex)).or (listed.find? ownGateway)

def planRoutes (listed : List Route) (wgIndex : Nat) (localCIDRs : List Prefix) :
    Except String RoutePlan :=
  match gatewayRoute listed wgIndex with
  | none =>
    .error ("no CNI gateway: the main table has no default route via a gateway outside wg0 " ++
      "and no route this client installed")
  | some r => .ok ⟨r.gw, r.linkIndex, localCIDRs, listed.filter (isStale wgIndex localCIDRs)⟩

/-- netlink.Route. The addresses of an IPv4 dump are IPv4, and a default route may come
without Dst. -/
structure NetlinkRoute where
  dst : Option IPNet
  gw : Option Addr
  linkIndex : Nat
  priority : Nat
  protocol : Nat
  scope : Nat
  deriving DecidableEq

def toRoute (r : NetlinkRoute) : Route :=
  ⟨r.dst.getD defaultDst, r.gw, r.linkIndex, r.priority, r.protocol, r.scope⟩

inductive Errno where
  | esrch | eopnotsupp | eafnosupport
  | other (text : String)
  deriving DecidableEq

def Errno.text : Errno → String
  | .esrch => "no such process"
  | .eopnotsupp => "operation not supported"
  | .eafnosupport => "address family not supported by protocol"
  | .other text => text

inductive Family where
  | v4 | v6
  deriving DecidableEq

/-- The netlink calls on the main table. The family of a route is that of its Dst. -/
inductive NetlinkCall where
  | routeList (family : Family)
  | routeReplace (r : NetlinkRoute)
  | routeDel (family : Family) (r : NetlinkRoute)

abbrev NetlinkReply : NetlinkCall → Type
  | .routeList _ => List NetlinkRoute
  | .routeReplace _ => Unit
  | .routeDel .. => Unit

abbrev NetlinkAnswer (request : NetlinkCall) : Type := Except Errno (NetlinkReply request)

abbrev Netlink := Program NetlinkCall NetlinkAnswer String

def localRoute (plan : RoutePlan) (p : Prefix) : NetlinkRoute :=
  ⟨some p, plan.gw, plan.gwLink, 0, routeProtocol, scopeUniverse⟩

def wgDefault (wgIndex : Nat) : NetlinkRoute :=
  ⟨some defaultDst, none, wgIndex, 0, routeProtocol, scopeLink⟩

def staleRoute (r : Route) : NetlinkRoute :=
  ⟨some r.dst, r.gw, r.linkIndex, r.priority, r.protocol, r.scope⟩

def gwString (gw : Option Addr) : String := (gw.map Addr.string).getD "invalid IP"

def replaceLocal (plan : RoutePlan) : List Prefix → Netlink Unit
  | [] => pure ()
  | p :: rest => do
    match ← ask (.routeReplace (localRoute plan p)) with
    | .error e => .fail ("replace route " ++ p.string ++ " via " ++ gwString plan.gw ++
      ": " ++ e.text)
    | .ok _ => replaceLocal plan rest

def replaceDefault (wgIndex : Nat) : Netlink Unit := do
  match ← ask (.routeReplace (wgDefault wgIndex)) with
  | .error e => .fail ("replace the default route via wg0: " ++ e.text)
  | .ok _ => pure ()

def deleteStale : List Route → Netlink Unit
  | [] => pure ()
  | r :: rest => do
    match ← ask (.routeDel .v4 (staleRoute r)) with
    | .ok _ | .error .esrch => deleteStale rest
    | .error e => .fail ("delete route " ++ r.dst.string ++ ": " ++ e.text)

def noIPv6Stack (e : Errno) : Bool := e = .eopnotsupp || e = .eafnosupport

/-- An IPv6 default route. A dump may fall back to all families, so an IPv4 address says
that the route is none of these. -/
def isIPv6Default (r : NetlinkRoute) : Bool :=
  !(r.dst.any (·.addr.unmap.is4) || r.gw.any (·.unmap.is4)) && r.dst.all (·.bits = 0)

def ipv6Default (r : NetlinkRoute) : NetlinkRoute :=
  { r with dst := some defaultDst6, protocol := 0 }

def deleteEachIPv6 : List NetlinkRoute → Netlink Unit
  | [] => pure ()
  | r :: rest =>
    if isIPv6Default r then do
      match ← ask (.routeDel .v6 (ipv6Default r)) with
      | .ok _ => deleteEachIPv6 rest
      | .error e =>
        if e = .esrch || noIPv6Stack e then deleteEachIPv6 rest
        else .fail ("delete IPv6 default route: " ++ e.text)
    else deleteEachIPv6 rest

def deleteIPv6Defaults : Netlink Unit := do
  match ← ask (.routeList .v6) with
  | .error e => if noIPv6Stack e then pure () else .fail ("list routes: " ++ e.text)
  | .ok listed => deleteEachIPv6 listed

def applyPlan (wgIndex : Nat) (plan : RoutePlan) : Netlink Unit := do
  replaceLocal plan plan.localCIDRs
  replaceDefault wgIndex
  deleteStale plan.stale
  deleteIPv6Defaults

def ensureRoutes (wgIndex : Nat) (localCIDRs : List Prefix) : Netlink Unit := do
  match ← ask (.routeList .v4) with
  | .error e => .fail ("list routes: " ++ e.text)
  | .ok listed =>
    match planRoutes (listed.map toRoute) wgIndex localCIDRs with
    | .error e => .fail e
    | .ok plan => applyPlan wgIndex plan

/-! The kernel's side. -/

def slot (r : Route) : Prefix × Nat := (r.dst, r.priority)

/-- The IPv4 main table holds one route for each destination and metric. -/
abbrev MainTable := SlotTable slot

/-- How the kernel answers: it lists the IPv4 routes in an order that `lists` admits, a
replace overwrites the route of the same destination and metric, and a failed call
changes nothing. IPv6 calls do not touch the table. A delete is exact: it takes the route
it names. That metric 0 and a missing gateway match any would make a difference only for a
route that is gone. -/
inductive Kernel (lists : MainTable → List Route → Prop) :
    MainTable → (request : NetlinkCall) → NetlinkAnswer request → MainTable → Prop where
  | list (order : lists t (listed.map toRoute)) : Kernel lists t (.routeList .v4) (.ok listed) t
  | list6 (listed : List NetlinkRoute) : Kernel lists t (.routeList .v6) (.ok listed) t
  | listFails (family : Family) (e : Errno) : Kernel lists t (.routeList family) (.error e) t
  | replace (r : NetlinkRoute) : Kernel lists t (.routeReplace r) (.ok ()) (t.replace (toRoute r))
  | replaceFails (r : NetlinkRoute) (e : Errno) : Kernel lists t (.routeReplace r) (.error e) t
  | delete (present : toRoute r ∈ t.entries) :
    Kernel lists t (.routeDel .v4 r) (.ok ()) (t.delete (toRoute r))
  | gone (absent : toRoute r ∉ t.entries) : Kernel lists t (.routeDel .v4 r) (.error .esrch) t
  | deleteFails (r : NetlinkRoute) (e : Errno) (fault : e ≠ .esrch) :
    Kernel lists t (.routeDel .v4 r) (.error e) t
  | delete6 (r : NetlinkRoute) (answer : Except Errno Unit) :
    Kernel lists t (.routeDel .v6 r) answer t

/-- The route a packet to `addr` takes. -/
def MainTable.lookup (t : MainTable) (addr : Addr) : Option Route :=
  bestMatch (fun r => r.dst.contains addr) (·.dst.bits) (·.priority) t.entries

/-- The kernel lists the table in whatever order. -/
def AnyOrder (t : MainTable) (listed : List Route) : Prop := listed.Perm t.entries

end TunnelOperator.Sidecar
