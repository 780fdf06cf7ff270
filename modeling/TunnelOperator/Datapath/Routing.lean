import TunnelOperator.Library.Program
import TunnelOperator.Library.PolicyRules
import TunnelOperator.Library.RouteTable
import TunnelOperator.Standard.Cidr

/-! internal/datapath/routing_linux.go: the server's policy routing, as a program of
netlink calls, and Linux IPv4 policy routing itself. -/
namespace TunnelOperator.Datapath
open Netip Net Program

def wgInterface : String := "wg0"
def egressInterface : String := "tun0"
def podInterface : String := "eth0"

def peerTable : Nat := 51821
def peerRulePref : Nat := 90
def blackholeTable : Nat := 51822
def blackholePref : Nat := 102

/-- The kernel's own tables. -/
def mainTable : Nat := 254
def localTable : Nat := 255

/-- The selectors and the table of a netlink.Rule. -/
structure Rule where
  priority : Nat
  table : Nat
  src : Option IPNet
  dst : Option IPNet
  iifName : String
  oifName : String
  mark : BitVec 32
  mask : Option (BitVec 32)
  invert : Bool
  deriving DecidableEq

/-- netlink.NewRule, whose other fields select nothing. -/
def newRule (priority table : Nat) : Rule := ⟨priority, table, none, none, "", "", 0, none, false⟩

def peerRule (p : Prefix) : Rule := { newRule peerRulePref peerTable with dst := some p }
def blackholeRule : Rule := { newRule blackholePref blackholeTable with iifName := wgInterface }

def desiredRules (p : Prefix) : List Rule := [peerRule p, blackholeRule]

def dstString (dst : Option IPNet) : String := (dst.map Prefix.string).getD ""

def ruleMatches (have' want : Rule) : Bool :=
  have'.priority = want.priority && have'.table = want.table &&
    dstString have'.dst = dstString want.dst && have'.iifName = want.iifName

inductive RouteType where
  | unicast | «local» | blackhole
  deriving DecidableEq

/-- A route of one of the tables. A blackhole has no link. -/
structure TableRoute where
  dst : Prefix
  linkIndex : Nat
  priority : Nat
  type : RouteType
  deriving DecidableEq

def peerRoute (wgIndex : Nat) (p : Prefix) : TableRoute := ⟨p, wgIndex, 0, .unicast⟩
def blackholeRoute : TableRoute := ⟨.everyIPv4, 0, 0, .blackhole⟩

inductive RoutingCall where
  | linkByName (name : String)
  | routeReplace (table : Nat) (r : TableRoute)
  | ruleList
  | ruleDel (r : Rule)
  | ruleAdd (r : Rule)

abbrev RoutingReply : RoutingCall → Type
  | .linkByName _ => Nat
  | .ruleList => List Rule
  | .routeReplace .. | .ruleDel _ | .ruleAdd _ => Unit

abbrev RoutingAnswer (request : RoutingCall) : Type := Except String (RoutingReply request)

abbrev Routing := Program RoutingCall RoutingAnswer String

/-- Deletes the rules at the priority of `want` that are not `want`, and reports whether
one is. -/
def sweepRules (want : Rule) (found : Bool) : List Rule → Routing Bool
  | [] => pure found
  | r :: rest =>
    if r.priority ≠ want.priority then sweepRules want found rest
    else if ruleMatches r want then sweepRules want true rest
    else do
      match ← ask (.ruleDel r) with
      | .error e => .fail ("delete ip rule pref " ++ Nat.repr want.priority ++ ": " ++ e)
      | .ok _ => sweepRules want found rest

def addRule (want : Rule) : Routing Unit := do
  match ← ask (.ruleAdd want) with
  | .error e => .fail ("add ip rule pref " ++ Nat.repr want.priority ++ ": " ++ e)
  | .ok _ => pure ()

def ensureRule (want : Rule) : Routing Unit := do
  match ← ask .ruleList with
  | .error e => .fail ("list ip rules: " ++ e)
  | .ok listed =>
    let found ← sweepRules want false listed
    if found then pure () else addRule want

def ensureRules : List Rule → Routing Unit
  | [] => pure ()
  | want :: rest => do
    ensureRule want
    ensureRules rest

def replaceRoute (table : Nat) (r : TableRoute) : Routing Unit := do
  match ← ask (.routeReplace table r) with
  | .error e => .fail ("replace route in table " ++ Nat.repr table ++ ": " ++ e)
  | .ok _ => pure ()

def ensureRouting (p : Prefix) : Routing Unit := do
  match ← ask (.linkByName wgInterface) with
  | .error e => .fail ("look up " ++ wgInterface ++ ": " ++ e)
  | .ok wgIndex =>
    replaceRoute peerTable (peerRoute wgIndex p)
    replaceRoute blackholeTable blackholeRoute
    ensureRules (desiredRules p)

/-! The kernel's side. -/

def TableRoute.slot (r : TableRoute) : Prefix × Nat := (r.dst, r.priority)

structure Policy where
  rules : RuleSet Rule.priority
  tables : Nat → SlotTable TableRoute.slot
  linkName : Nat → String

/-- What a rule sees of an IPv4 packet. The output link is only known for a packet of the
pod itself that is bound to one. -/
structure Packet where
  src : BitVec 32
  dst : BitVec 32
  iif : String
  oif : String
  mark : BitVec 32
  deriving DecidableEq

def Rule.effectiveMask (r : Rule) : BitVec 32 :=
  r.mask.getD (if r.mark = 0 then 0 else BitVec.allOnes 32)

def Rule.selects (r : Rule) (packet : Packet) : Bool :=
  (r.src.all (·.contains (.v4 packet.src)) && r.dst.all (·.contains (.v4 packet.dst)) &&
    (r.iifName = "" || r.iifName = packet.iif) && (r.oifName = "" || r.oifName = packet.oif) &&
    (packet.mark ^^^ r.mark) &&& r.effectiveMask = 0) != r.invert

def Policy.lookup (s : Policy) (dst : BitVec 32) (table : Nat) : Option TableRoute :=
  bestMatch (fun r => r.dst.contains (.v4 dst)) (·.dst.bits) (·.priority) (s.tables table).entries

/-- The rules from the lowest preference on: the tables looked up, and the route found. -/
def Policy.resolve (s : Policy) (packet : Packet) : List Nat × Option TableRoute :=
  walk (·.selects packet) Rule.table (s.lookup packet.dst) s.rules.rules

inductive Verdict where
  | out (link : String)
  | deliver
  | drop
  deriving DecidableEq

def Policy.verdict (s : Policy) (r : TableRoute) : Verdict :=
  match r.type with
  | .unicast => .out (s.linkName r.linkIndex)
  | .local => .deliver
  | .blackhole => .drop

/-- A packet no rule has a route for is unreachable. -/
def Policy.route (s : Policy) (packet : Packet) : Verdict :=
  match (s.resolve packet).2 with
  | some r => s.verdict r
  | none => .drop

/-- Others leave the agent's preferences and tables alone. -/
structure Foreign (s t : Policy) : Prop where
  rules : ∀ r : Rule, r.priority = peerRulePref ∨ r.priority = blackholePref →
    t.rules.rules.count r = s.rules.rules.count r
  peerTable : t.tables peerTable = s.tables peerTable
  blackholeTable : t.tables blackholeTable = s.tables blackholeTable

def Policy.replaceRoute (s : Policy) (table : Nat) (r : TableRoute) : Policy :=
  { s with tables := Function.update s.tables table ((s.tables table).replace r) }

/-- How the kernel answers. A failed call changes nothing, and a delete removes one rule
equal to the one given. -/
inductive Answers : Policy → (request : RoutingCall) → RoutingAnswer request → Policy → Prop where
  | link (named : s.linkName index = name) : Answers s (.linkByName name) (.ok index) s
  | replaced : Answers s (.routeReplace table r) (.ok ()) (s.replaceRoute table r)
  | listed : Answers s .ruleList (.ok s.rules.rules) s
  | deleted (present : r ∈ s.rules.rules) :
    Answers s (.ruleDel r) (.ok ()) { s with rules := s.rules.erase r }
  | added : Answers s (.ruleAdd r) (.ok ()) { s with rules := s.rules.add r }
  | failed (e : String) : Answers s request (.error e) s

/-- Between any two calls others may change everything but what is the agent's. -/
def RoutingKernel : Environment RoutingCall RoutingAnswer Policy := fun s request answer t =>
  ∃ u, Foreign s u ∧ Answers u request answer t

/-- The states in which the agent has asserted any prefixes, with whatever success, since
nobody used its preferences and tables. -/
inductive Reached : Policy → Prop where
  | start (unused : ∀ r ∈ s.rules.rules, r.priority ≠ peerRulePref ∧ r.priority ≠ blackholePref)
      (peers : (s.tables peerTable).entries = [])
      (blackhole : (s.tables blackholeTable).entries = []) : Reached s
  | foreign (before : Reached s) (changed : Foreign s t) : Reached t
  | pass (before : Reached s) (family : p.addr.is4 = true)
      (run : Trace RoutingKernel s (ensureRouting p) events outcome t) : Reached t

end TunnelOperator.Datapath
