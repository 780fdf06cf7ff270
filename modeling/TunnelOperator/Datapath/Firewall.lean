import TunnelOperator.Datapath.Routing
import TunnelOperator.Standard.PrefixProofs

/-! internal/datapath/datapath.go: the iptables rules the agent asserts, and what a
FORWARD chain of such rules lets through. -/
namespace TunnelOperator.Datapath
open Netip

structure IptablesRule where
  table : String
  chain : String
  spec : List String
  deriving DecidableEq

def rules (peerCIDR : Prefix) : List IptablesRule :=
  let cidr := peerCIDR.string
  [⟨"filter", "FORWARD", ["-i", wgInterface, "-o", egressInterface, "-s", cidr, "-j", "ACCEPT"]⟩,
   ⟨"filter", "FORWARD", ["-i", egressInterface, "-o", wgInterface, "-m", "conntrack", "--ctstate",
     "ESTABLISHED,RELATED", "-j", "ACCEPT"]⟩,
   ⟨"mangle", "FORWARD", ["-o", egressInterface, "-p", "tcp", "--tcp-flags", "SYN,RST", "SYN",
     "-j", "TCPMSS", "--clamp-mss-to-pmtu"]⟩,
   ⟨"nat", "POSTROUTING", ["-s", cidr, "-o", egressInterface, "-j", "MASQUERADE"]⟩]

/-- A packet between routing and its output link. -/
structure Forwarded where
  packet : Packet
  out : String
  ctstate : String

def optionMatches (f : Forwarded) (option value : String) : Bool :=
  if option = "-i" then f.packet.iif = value
  else if option = "-o" then f.out = value
  else if option = "-s" then
    match parsePrefix value with
    | .ok p => p.contains (.v4 f.packet.src)
    | .error _ => false
  else if option = "--ctstate" then f.ctstate ∈ value.splitOn ","
  else false

/-- The target of a rule of the filter table, if the packet matches all its options. -/
def target (f : Forwarded) : List String → Option String
  | option :: value :: rest =>
    if option = "-j" then some value
    else if option = "-m" then target f rest
    else if optionMatches f option value then target f rest
    else none
  | _ => none

/-- The first rule that matches decides, and else the policy. -/
def chainTarget (policy : String) (chain : List IptablesRule) (f : Forwarded) : String :=
  (chain.findSome? fun r => target f r.spec).getD policy

/-- What becomes of a packet that came in on a link: it is routed and, when it leaves on
another link, filtered. -/
def Policy.fate (s : Policy) (policy : String) (chain : List IptablesRule) (packet : Packet)
    (ctstate : String) :
    Verdict :=
  match s.route packet with
  | .out link => if chainTarget policy chain ⟨packet, link, ctstate⟩ = "ACCEPT" then
    .out link else .drop
  | .deliver => .deliver
  | .drop => .drop

section Chain
variable {f : Forwarded}

/-- Of a packet from wg0 the rules accept only what goes to tun0 from the prefix. -/
theorem target_from_wg (family : q.addr = .v4 base) (member : r ∈ rules q)
    (filter : r.table = "filter")
    (arrived : f.packet.iif = wgInterface) (decided : target f r.spec = some verdict) :
    f.out = egressInterface ∧ q.contains (.v4 f.packet.src) = true := by
  simp only [rules, List.mem_cons, List.not_mem_nil, or_false] at member
  rcases member with rfl | rfl | rfl | rfl
  · simp [target, optionMatches, parsePrefix_string family] at decided
    exact ⟨decided.2.1, decided.2.2.1⟩
  · simp [target, optionMatches, arrived, wgInterface, egressInterface] at decided
  · simp at filter
  · simp at filter

/-- A dropping FORWARD chain that holds nothing but asserted rules lets packets from wg0
out to tun0 only. -/
theorem accepted_from_wg {asserted : List Prefix} {chain : List IptablesRule}
    (families : ∀ q ∈ asserted, q.addr.is4 = true)
    (only : ∀ r ∈ chain, r.table = "filter" ∧ ∃ q ∈ asserted, r ∈ rules q)
    (arrived : f.packet.iif = wgInterface)
    (accepted : chainTarget "DROP" chain f = "ACCEPT") :
    f.out = egressInterface ∧ ∃ q ∈ asserted, q.contains (.v4 f.packet.src) = true := by
  cases decided : chain.findSome? fun r => target f r.spec with
  | none => simp [chainTarget, decided] at accepted
  | some verdict =>
    obtain ⟨r, member, hit⟩ := List.exists_of_findSome?_eq_some decided
    obtain ⟨filter, q, here, ours⟩ := only r member
    have four := families q here
    cases family : q.addr with
    | v6 value zone => simp [family, Addr.is4] at four
    | v4 base =>
      obtain ⟨out, covers⟩ := target_from_wg family ours filter arrived hit
      exact ⟨out, q, here, covers⟩

end Chain
end TunnelOperator.Datapath
