import TunnelOperator.Library.Program
import TunnelOperator.Standard.Cidr
import Mathlib.Logic.Function.Basic
import Mathlib.Logic.Relation

/-! internal/wireguard: SyncLink, SyncAddress and syncRoute, as programs of system calls,
and the network namespace that answers them. The agent of the server and the sidecar of a
pod both run the first two. -/
namespace TunnelOperator.Agent
open Net Netip Program

/-- `notFound` is netlink.LinkNotFoundError, or an error os.IsNotExist knows. -/
inductive SystemError where
  | notFound (text : String)
  | other (text : String)
  deriving DecidableEq

def SystemError.text : SystemError → String
  | .notFound text | .other text => text

/-- What the programs read of a netlink.Link. -/
structure FoundLink where
  index : Nat
  mtu : Nat
  deriving DecidableEq

/-- A route of the main table that names no preferred source. -/
structure LinkRoute where
  linkIndex : Nat
  dst : Prefix
  gw : Addr
  deriving DecidableEq

/-- A link, once looked up, is named by its index; wgctrl names its device. `stat` tells
whether there is a character device. -/
inductive SystemCall (Cfg : Type) where
  | linkByName (iface : String)
  | linkAdd (iface : String) (mtu : Nat)
  | linkSetMTU (index mtu : Nat)
  | linkSetUp (index : Nat)
  | mkdirAll (path : String)
  | stat (path : String)
  | mknod (path : String)
  | start (implementation iface : String)
  | addrList (index : Nat)
  | addrDel (index : Nat) (p : Prefix)
  | addrAdd (index : Nat) (p : Prefix)
  | routeList (index : Nat)
  | routeAdd (route : LinkRoute)
  | openWgctrl
  | device (iface : String)
  | configureDevice (iface : String) (cfg : Cfg)
  | closeWgctrl

/-- The clock does not fail. Times are in nanoseconds. -/
inductive NetCall (Cfg : Type) where
  | now
  | sleep (duration : Nat)
  | system (request : SystemCall Cfg)

abbrev SystemReply (Dev : Type) : SystemCall Cfg → Type
  | .linkByName _ => FoundLink
  | .stat _ => Bool
  | .addrList _ => List Prefix
  | .routeList _ => List LinkRoute
  | .device _ => Dev
  | _ => Unit

abbrev NetAnswer (Dev : Type) : NetCall Cfg → Type
  | .now => Nat
  | .sleep _ => Unit
  | .system request => Except SystemError (SystemReply Dev request)

/-- `stuck` is a loop that has used up the rounds it was given. -/
inductive LinkError where
  | stuck
  | message (text : String)
  deriving DecidableEq

def LinkError.wrap (text : String) : LinkError → LinkError
  | .stuck => .stuck
  | .message e => .message (text ++ e)

section Programs
variable {Cfg Dev : Type}

abbrev NetProgram (Cfg Dev : Type) := Program (NetCall Cfg) (NetAnswer Dev) LinkError

def orMessage (text : String) : Except SystemError α → NetProgram Cfg Dev α
  | .ok value => .done value
  | .error e => .fail (.message (text ++ e.text))

/-- The error, or none. -/
def makeTun : Except SystemError Bool → NetProgram Cfg Dev (Option String)
  | .error (.notFound _) => .call (.system (.mknod "/dev/net/tun")) fun
    | .ok _ => .done none
    | .error e => .done (some ("mknod /dev/net/tun failed: " ++ e.text))
  | .error (.other text) => .done (some text)
  | .ok character => .done
    (if character then none else some "/dev/net/tun exists but is not a character device")

def createLinkUsingUserspaceImpl (iface implementation : String) :
    NetProgram Cfg Dev (Option String) :=
  .call (.system (.mkdirAll "/dev/net")) fun
    | .error e => .done (some e.text)
    | .ok _ => .call (.system (.stat "/dev/net/tun")) fun found => do
      match ← makeTun found with
      | some problem => return some problem
      | none => .call (.system (.start implementation iface)) fun
        | .ok _ => .done none
        | .error e => .done (some
            ("starting userspace implementation " ++ Strconv.quote implementation ++
            " failed: " ++ e.text))

def userspaceLinkTimeout : Nat := 5000000000

def pollInterval : Nat := 100000000

def pollLink (iface : String) (deadline : Nat) : Nat → NetProgram Cfg Dev Unit
  | 0 => .fail .stuck
  | rounds + 1 => .call (.system (.linkByName iface)) fun
    | .ok _ => .done ()
    | .error e => .call .now fun now =>
      if deadline < now then .fail
        (.message ("userspace WireGuard did not create link " ++ Strconv.quote iface ++
        " within 5s: " ++ e.text ++
        "; ensure a userspace implementation (e.g., wireguard-go) is running for this interface"))
      else .call (.sleep pollInterval) fun _ => pollLink iface deadline rounds

/-- The rounds that fit into the timeout, the one after it, and the one that began on it. -/
def pollRounds (timeout : Nat) : Nat := timeout / pollInterval + 2

def waitForLink (iface : String) (timeout : Nat) : NetProgram Cfg Dev Unit :=
  .call .now fun start => pollLink iface (start + timeout) (pollRounds timeout)

/-- createLinkUsingKernelModule, and the fallback. -/
def createLink (iface : String) (mtu : Nat) (implementation : String) : NetProgram Cfg Dev Unit :=
  .call (.system (.linkAdd iface mtu)) fun
    | .ok _ => .done ()
    | .error kernelErr => do
      match ← createLinkUsingUserspaceImpl iface implementation with
      | some userspaceErr => .fail (.message (kernelErr.text ++ "\n" ++ userspaceErr))
      | none => waitForLink iface userspaceLinkTimeout

def findLink (iface : String) (mtu : Nat) (implementation : String) :
    NetProgram Cfg Dev FoundLink :=
  .call (.system (.linkByName iface)) fun
    | .ok link => .done link
    | .error (.other text) => .fail (.message text)
    | .error (.notFound _) => do
      createLink iface mtu implementation
      .call (.system (.linkByName iface))
        (orMessage ("expected link " ++ Strconv.quote iface ++ " after creation, but not found: "))

def setMTU (iface : String) (mtu : Nat) (link : FoundLink) : NetProgram Cfg Dev Unit :=
  if link.mtu = mtu then .done ()
  else .call (.system (.linkSetMTU link.index mtu))
    (orMessage ("set link " ++ Strconv.quote iface ++ " MTU to " ++ Nat.repr mtu ++ ": "))

def syncLink (iface : String) (mtu : Nat) (implementation : String) : NetProgram Cfg Dev Unit := do
  let link ← findLink iface mtu implementation
  setMTU iface mtu link
  .call (.system (.linkSetUp link.index))
    (orMessage ("bringing link " ++ Strconv.quote iface ++ " up failed: "))

/-- The addresses to remove, and whether `want` must be added. -/
def addressChanges (have' : List Prefix) (want : Prefix) : List Prefix × Bool :=
  (have'.filter (· ≠ want), !have'.contains want)

def removeAddresses (index : Nat) : List Prefix → NetProgram Cfg Dev Unit
  | [] => .done ()
  | p :: rest => .call (.system (.addrDel index p)) fun
    | .ok _ => removeAddresses index rest
    | .error e => .fail (.message ("netlink addr del " ++ p.string ++ ": " ++ e.text))

def addAddress (index : Nat) (want : Prefix) (add : Bool) : NetProgram Cfg Dev Unit :=
  if add then .call (.system (.addrAdd index want)) (orMessage "netlink addr add: ") else .done ()

def syncAddress (iface : String) (want : Prefix) : NetProgram Cfg Dev Unit :=
  .call (.system (.linkByName iface)) fun
    | .error e => .fail (.message e.text)
    | .ok link => .call (.system (.addrList link.index)) fun
      | .error e => .fail (.message ("netlink addr list: " ++ e.text))
      | .ok addresses => do
        removeAddresses link.index (addressChanges addresses want).1
        addAddress link.index want (addressChanges addresses want).2
        .call (.system (.linkSetUp link.index)) (orMessage "")

/-- A route of the link, whatever it is for, is taken to be the one wanted. -/
def chooseRoute (cidr : String) (gw : Addr) (index : Nat) (routes : List LinkRoute) :
    NetProgram Cfg Dev Unit :=
  if routes.any (·.linkIndex = index) then .done ()
  else match parseCIDR cidr with
    | .error e => .fail (.message e)
    | .ok dst => .call (.system (.routeAdd ⟨index, dst, gw⟩)) (orMessage "")

def syncRoute (iface cidr : String) (gw : Addr) : NetProgram Cfg Dev Unit :=
  .call (.system (.linkByName iface)) fun
    | .error e => .fail (.message e.text)
    | .ok link => .call (.system (.routeList link.index)) fun
      | .error e => .fail (.message e.text)
      | .ok routes => chooseRoute cidr gw link.index routes

end Programs

/-! The network namespace. -/

/-- A link with its IPv4 addresses and its WireGuard device. -/
structure Link (Dev : Type) where
  name : String
  mtu : Nat
  up : Bool
  addresses : List Prefix
  distinct : addresses.Nodup
  device : Dev

def Link.without (l : Link Dev) (p : Prefix) : Link Dev :=
  { l with addresses := l.addresses.erase p, distinct := l.distinct.erase p }

/-- The links by index, the IPv4 routes of the main table, /dev/net/tun and whether it is a
character device, the names a userspace implementation was started for, and the time. -/
structure NetNS (Dev : Type) where
  links : Nat → Option (Link Dev)
  named : links i = some l → links j = some m → l.name = m.name → i = j
  routes : List LinkRoute
  tun : Option Bool
  started : List String
  clock : Nat

/-- What a driver does: the device of a new link, and what a configuration makes of a
device when it is accepted and when it is not. -/
structure Driver (Cfg Dev : Type) where
  fresh : Dev
  configures : Dev → Cfg → Dev → Prop
  partly : Dev → Cfg → Dev → Prop

namespace NetNS
variable {Cfg Dev : Type} {n : NetNS Dev} {l : Link Dev}

def Absent (n : NetNS Dev) (iface : String) : Prop := ∀ i l, n.links i = some l → l.name ≠ iface

def withLink (n : NetNS Dev) (i : Nat) (l : Link Dev)
    (alone : ∀ j m, n.links j = some m → m.name = l.name → j = i) :
    NetNS Dev where
  links := Function.update n.links i (some l)
  named := by
    intro j a k b first second same
    rw [Function.update_apply] at first second
    split at first <;> split at second
    · simp_all
    · rename_i here apart
      obtain rfl := Option.some.inj first
      exact absurd (alone k b second same.symm) apart
    · rename_i apart here
      obtain rfl := Option.some.inj second
      exact absurd (alone j a first same) apart
    · exact n.named first second same
  routes := n.routes
  tun := n.tun
  started := n.started
  clock := n.clock

/-- A link there is, changed. -/
def change (n : NetNS Dev) (there : n.links i = some old) (l : Link Dev)
    (same : l.name = old.name) : NetNS Dev :=
  n.withLink i l fun _ _ found equal => n.named found there (equal.trans same)

def add (n : NetNS Dev) (i : Nat) (absent : n.Absent iface) (mtu : Nat) (fresh : Dev) : NetNS Dev :=
  n.withLink i ⟨iface, mtu, false, [], List.nodup_nil, fresh⟩ fun j m found equal => absurd equal
    (absent j m found)

end NetNS

section Kernel
variable {Cfg Dev : Type} (driver : Driver Cfg Dev)

/-- A userspace implementation that was started makes its link at some time. -/
inductive Appears : NetNS Dev → NetNS Dev → Prop where
  | link (asked : iface ∈ n.started) (absent : n.Absent iface) (free : n.links i = none)
      (mtu : Nat) :
      Appears n (n.add i absent mtu driver.fresh)

/-- What the kernel makes of the routes when a link loses an address: routes of this link
may go, those of other links stay, and with the last address all of its routes go. -/
structure Forgets {R : Type} (link : R → Nat) (i : Nat) (last : Prop) (before after : List R) :
    Prop where
  fewer : after.Sublist before
  others : r ∈ before → link r ≠ i → r ∈ after
  last : last → ∀ r ∈ after, link r ≠ i

/-- A call that fails for another reason than that something is not there changes nothing,
a configuration of a device excepted. No route comes with a /32, the only length the
programs add. -/
inductive NetAnswers (n : NetNS Dev) : (request : NetCall Cfg) → NetAnswer Dev request →
    NetNS Dev → Prop where
  | time (later : n.clock ≤ t) : NetAnswers n .now t { n with clock := t }
  | slept (later : n.clock + duration ≤ t) : NetAnswers n (.sleep duration) () { n with clock := t }
  | found (there : n.links i = some l) :
    NetAnswers n (.system (.linkByName l.name)) (.ok ⟨i, l.mtu⟩) n
  | missing (absent : n.Absent iface) (text : String) :
      NetAnswers n (.system (.linkByName iface)) (.error (.notFound text)) n
  | added (absent : n.Absent iface) (free : n.links i = none) :
      NetAnswers n (.system (.linkAdd iface mtu)) (.ok ()) (n.add i absent mtu driver.fresh)
  | mtuSet (there : n.links i = some l) :
      NetAnswers n (.system (.linkSetMTU i mtu)) (.ok ()) (n.change there { l with mtu := mtu } rfl)
  | upSet (there : n.links i = some l) :
      NetAnswers n (.system (.linkSetUp i)) (.ok ()) (n.change there { l with up := true } rfl)
  | made : NetAnswers n (.system (.mkdirAll path)) (.ok ()) n
  | tunFound (there : n.tun = some character) :
    NetAnswers n (.system (.stat path)) (.ok character) n
  | tunMissing (absent : n.tun = none) (text : String) :
    NetAnswers n (.system (.stat path)) (.error (.notFound text)) n
  | tunMade : NetAnswers n (.system (.mknod path)) (.ok ()) { n with tun := some true }
  | started : NetAnswers n (.system (.start implementation iface)) (.ok ())
    { n with started := iface :: n.started }
  | addresses (there : n.links i = some l) (order : listed.Perm l.addresses) :
      NetAnswers n (.system (.addrList i)) (.ok listed) n
  | addressDeleted (there : n.links i = some l) (held : p ∈ l.addresses)
      (forgets : Forgets LinkRoute.linkIndex i (l.addresses.erase p = []) n.routes left) :
      NetAnswers n (.system (.addrDel i p)) (.ok ())
        { n.change there (l.without p) rfl with routes := left }
  | addressAdded (there : n.links i = some l) (new : p ∉ l.addresses) :
      NetAnswers n (.system (.addrAdd i p)) (.ok ())
        (n.change there { l with addresses := p :: l.addresses, distinct := List.nodup_cons.mpr ⟨new, l.distinct⟩ } rfl)
  | routes (order : listed.Perm (n.routes.filter (·.linkIndex = i))) :
      NetAnswers n (.system (.routeList i)) (.ok listed) n
  | routeAdded (free : ∀ r ∈ n.routes, r.dst ≠ route.dst) :
      NetAnswers n (.system (.routeAdd route)) (.ok ()) { n with routes := n.routes ++ [route] }
  | opened : NetAnswers n (.system .openWgctrl) (.ok ()) n
  | closed : NetAnswers n (.system .closeWgctrl) (.ok ()) n
  | device (there : n.links i = some l) : NetAnswers n (.system (.device l.name)) (.ok l.device) n
  | configured (there : n.links i = some l) (accepted : driver.configures l.device cfg dev) :
      NetAnswers n (.system (.configureDevice l.name cfg)) (.ok ())
        (n.change there { l with device := dev } rfl)
  | halfConfigured (there : n.links i = some l) (part : driver.partly l.device cfg dev)
      (e : SystemError) :
      NetAnswers n (.system (.configureDevice l.name cfg)) (.error e)
        (n.change there { l with device := dev } rfl)
  | failed (text : String) : NetAnswers n (.system request) (.error (.other text)) n

def netEnv : Environment (NetCall Cfg) (NetAnswer Dev) (NetNS Dev) := fun n request answer n' =>
  ∃ m, Relation.ReflTransGen (Appears driver) n m ∧ NetAnswers driver m request answer n'

end Kernel
end TunnelOperator.Agent
