import TunnelOperator.Agent.PeerRange
import TunnelOperator.Datapath.FailClosed

/-! internal/datapath/peerpath.go and peerpath_linux.go: the route lookup by which the agent
judges whether the peers' traffic would reach the tunnel. -/
namespace TunnelOperator.Datapath
open Netip Net Program
open Agent (peerProbeSource)

def peerProbe : Addr := .v4 0xc0000201#32

/-- An error of the kernel or of netlink, and whether errors.Is finds EINVAL in it. -/
structure LookupError where
  text : String
  einval : Bool
  deriving DecidableEq

/-- `routeGet` asks for a packet that arrives on wg0, and answers with the links of the
routes. -/
inductive PathCall where
  | routeGet (probe src : Addr)
  | linkByIndex (index : Nat)

abbrev PathAnswer : PathCall → Type
  | .routeGet .. => Except LookupError (List Nat)
  | .linkByIndex _ => Except LookupError String

inductive PathError where
  | peerCIDR (message : String)
  | blackholed (probe src : Addr)
  | lookup (probe src : Addr) (e : String)
  | via (probe src : Addr) (dev : String)
  deriving DecidableEq

def arriving (probe src : Addr) : String :=
  probe.string ++ " from " ++ src.string ++ " arriving on " ++ wgInterface

def PathError.text : PathError → String
  | .peerCIDR message => message
  | .blackholed probe src =>
    "peer path: " ++ arriving probe src ++ " is blackholed (no tunnel route)"
  | .lookup probe src e => "peer path: look up " ++ arriving probe src ++ ": " ++ e
  | .via probe src dev => "peer path: " ++ arriving probe src ++ " routes via " ++ dev ++
    ", not " ++ egressInterface

abbrev PathProgram := Program PathCall PathAnswer PathError

def lookupPeerPath (probe src : Addr) : PathProgram (Except LookupError String) :=
  .call (.routeGet probe src) fun
    | .error e => .done (.error e)
    | .ok [] => .done (.error ⟨"no route returned", false⟩)
    | .ok (index :: _) => .call (.linkByIndex index) fun
      | .error e => .done (.error ⟨"look up link " ++ Nat.repr index ++ ": " ++ e.text, e.einval⟩)
      | .ok name => .done (.ok name)

def judgePeerPath (probe src : Addr) : Except LookupError String → PathProgram Unit
  | .error e => if e.einval then .fail (.blackholed probe src) else .fail (.lookup probe src e.text)
  | .ok dev => if dev ≠ egressInterface then .fail (.via probe src dev) else .done ()

def checkPeerPath (peerCIDR : String) : PathProgram Unit :=
  match parsePrefix peerCIDR with
  | .error e => .fail (.peerCIDR ("parse peerCIDR " ++ Strconv.quote peerCIDR ++ ": " ++ e))
  | .ok p =>
    match peerProbeSource p with
    | .error e => .fail (.peerCIDR e)
    | .ok src => do judgePeerPath peerProbe src (← lookupPeerPath peerProbe src)

/-! The kernel's side. -/

/-- A packet from a peer to `dst`, as it arrives. -/
def fromPeer (src dst : BitVec 32) : Packet := ⟨src, dst, wgInterface, "", 0⟩

/-- How the kernel answers. A packet from one of its own addresses is refused as a blackholed
one is, and no error of another kind is EINVAL. -/
inductive PathAnswers (s : Policy) : (request : PathCall) → PathAnswer request → Prop where
  | own (here : s.lookup src localTable ≠ none) (refused : e.einval = true) :
      PathAnswers s (.routeGet (.v4 dst) (.v4 src)) (.error e)
  | routed (found : (s.resolve (fromPeer src dst)).2 = some r) (unicast : r.type = .unicast) :
      PathAnswers s (.routeGet (.v4 dst) (.v4 src)) (.ok [r.linkIndex])
  | delivered (found : (s.resolve (fromPeer src dst)).2 = some r) (onHost : r.type = .local)
      (lo : s.linkName i = "lo") :
      PathAnswers s (.routeGet (.v4 dst) (.v4 src)) (.ok [i])
  | blackhole (found : (s.resolve (fromPeer src dst)).2 = some r) (type : r.type = .blackhole)
      (refused : e.einval = true) :
      PathAnswers s (.routeGet (.v4 dst) (.v4 src)) (.error e)
  | named : PathAnswers s (.linkByIndex i) (.ok (s.linkName i))
  | getFails (fault : e.einval = false) : PathAnswers s (.routeGet probe src) (.error e)
  | nameFails (fault : e.einval = false) : PathAnswers s (.linkByIndex i) (.error e)

def PathKernel : Environment PathCall PathAnswer Policy :=
  fun s request answer t => t = s ∧ PathAnswers s request answer

/-- A rule that does not tell the peers of `p` apart: it looks at no source, or at those of
others. -/
inductive Blind (p : Prefix) (rule : Rule) : Prop where
  | unsourced (any : rule.src = none)
  | apart (others : ∀ packet, rule.selects packet = true → p.contains (.v4 packet.src) = false)

variable {s : Policy} {p : Prefix}

theorem Blind.selects (blind : Blind p rule) (first : p.contains (.v4 a) = true)
    (second : p.contains (.v4 b) = true)
    (dst : BitVec 32) : rule.selects (fromPeer a dst) = rule.selects (fromPeer b dst) := by
  cases blind with
  | unsourced any =>
    simp only [Rule.selects, any, Option.all_none]
    rfl
  | apart others =>
    have never {c} (inside : p.contains (.v4 c) = true) :
        rule.selects (fromPeer c dst) = false := by
      by_contra selected
      have outside := others _ (by simpa using selected)
      exact absurd (outside.symm.trans inside) (by decide)
    rw [never first, never second]

/-- Up to the blackhole nobody tells the peers apart, so their packets to one destination
have one fate. -/
theorem route_alike (asserted : Asserted q s) (remote : s.lookup dst localTable = none)
    (alike : ∀ r ∈ s.rules.rules, r.priority ≤ blackholePref → r.table = localTable ∨ Blind p r)
    (first : p.contains (.v4 a) = true) (second : p.contains (.v4 b) = true) :
    (s.resolve (fromPeer a dst)).2 = (s.resolve (fromPeer b dst)).2 := by
  have catches : blackholeRule.selects (fromPeer b dst) = true := by
    simp [Rule.selects, blackholeRule, newRule, Rule.effectiveMask, fromPeer]
  have answers : s.lookup dst blackholeRule.table ≠ none := by
    rw [show blackholeRule.table = blackholeTable from rfl, lookup_blackhole asserted]
    simp
  refine walk_agree s.rules.sorted asserted.closed catches answers fun r member early => ?_
  rcases alike r member early with onHost | blind
  · exact .inr (onHost ▸ remote)
  · exact .inl (blind.selects first second dst)

theorem peerProbeSource_v4 (family : p.addr = .v4 base) (probed : peerProbeSource p = .ok src) :
    ∃ bits, src = .v4 bits ∧ p.contains (.v4 bits) = true := by
  unfold peerProbeSource at probed
  split at probed
  · split at probed
    · rename_i inside
      obtain rfl := Except.ok.inj probed
      obtain ⟨bits, rfl, -⟩ := (Prefix.contains_v4 family).mp inside
      exact ⟨bits, rfl, inside⟩
    · contradiction
  · contradiction

/-- What the lookup for a packet that is not from the host itself comes to. -/
inductive Looked (s : Policy) (src dst : BitVec 32) : Except LookupError String → Prop where
  | routed (found : (s.resolve (fromPeer src dst)).2 = some r) (unicast : r.type = .unicast) :
      Looked s src dst (.ok (s.linkName r.linkIndex))
  | delivered : Looked s src dst (.ok "lo")
  | blackhole (found : (s.resolve (fromPeer src dst)).2 = some r) (type : r.type = .blackhole)
      (refused : e.einval = true) :
      Looked s src dst (.error e)
  | failed (fault : e.einval = false) : Looked s src dst (.error e)

theorem lookupPeerPath_run {outcome : Outcome PathError (Except LookupError String)}
    (remote : s.lookup src localTable = none)
    (run : Trace PathKernel s (lookupPeerPath (.v4 dst) (.v4 src)) events outcome t) :
    outcome = .cut ∨ ∃ result, outcome = .done result ∧ Looked s src dst result := by
  rcases run.call_cases with ⟨-, rfl, -⟩ | ⟨answer, u, _, ⟨rfl, answered⟩, after, -⟩
  · exact .inl rfl
  -- The name of the link, once the route has one.
  have names {i rest} (after : Trace PathKernel u (.call (.linkByIndex i) fun
        | .error e => .done (.error ⟨"look up link " ++ Nat.repr i ++ ": " ++ e.text, e.einval⟩)
        | .ok name => .done (.ok name)) rest outcome t)
          (good : Looked u src dst (.ok (u.linkName i))) :
      outcome = .cut ∨ ∃ result, outcome = .done result ∧ Looked u src dst result := by
    rcases after.call_cases with ⟨-, rfl, -⟩ | ⟨answer, v, _, ⟨rfl, answered⟩, ended, -⟩
    · exact .inl rfl
    cases answered with
    | named =>
      cases ended with
      | done => exact .inr ⟨_, rfl, good⟩
      | cut => exact .inl rfl
    | nameFails fault =>
      cases ended with
      | done => exact .inr ⟨_, rfl, .failed fault⟩
      | cut => exact .inl rfl
  cases answered with
  | own here => exact absurd remote here
  | routed found unicast => exact names after (.routed found unicast)
  | delivered found onHost lo => exact names after (lo ▸ .delivered)
  | blackhole found type refused =>
    cases after with
    | done => exact .inr ⟨_, rfl, .blackhole found type refused⟩
    | cut => exact .inl rfl
  | getFails fault =>
    cases after with
    | done => exact .inr ⟨_, rfl, .failed fault⟩
    | cut => exact .inl rfl

/-- nil is a route through tun0, and the report of a blackhole is one. -/
theorem judgePeerPath_run {outcome : Outcome PathError Unit} (looked : Looked s src dst result)
    (judges : Trace PathKernel u (judgePeerPath probe host result) events outcome t) :
    (outcome = .done () → ∃ r, (s.resolve (fromPeer src dst)).2 = some r ∧
      s.verdict r = .out egressInterface) ∧
    ((∃ asked peer, outcome = .fail (.blackholed asked peer)) →
      ∃ r, (s.resolve (fromPeer src dst)).2 = some r ∧ s.verdict r = .drop) := by
  unfold judgePeerPath at judges
  cases looked with
  | @routed r found unicast =>
    dsimp only at judges
    split at judges
    · cases judges with
      | fail | cut => simp
    · rename_i tunnel
      have out : s.verdict r = .out egressInterface := by
        rw [Policy.verdict, unicast]
        exact congrArg Verdict.out (not_not.mp tunnel)
      cases judges with
      | done | cut => exact ⟨fun _ => ⟨r, found, out⟩, by simp⟩
  | delivered =>
    cases judges with
    | fail | cut => simp
  | @blackhole r _ found type refused =>
    have dropped : s.verdict r = .drop := by rw [Policy.verdict, type]
    dsimp only at judges
    rw [if_pos refused] at judges
    cases judges with
    | fail | cut => exact ⟨by simp, fun _ => ⟨r, found, dropped⟩⟩
  | failed fault =>
    dsimp only at judges
    rw [if_neg (by simp [fault])] at judges
    cases judges with
    | fail | cut => simp

/-- The check looks at the second host of the range alone and speaks for every peer: when it
returns nil, what any peer sends to the probed address leaves through tun0, and when it
reports a blackhole, all of it is dropped. -/
theorem peer_path_speaks {outcome : Outcome PathError Unit} (family : p.addr = .v4 base)
    (parsed : parsePrefix peerCIDR = .ok p) (reached : Reached before)
    (asserting : Trace RoutingKernel before (ensureRouting p.masked) calls (.done ()) after)
    (changed : Foreign after s) (remote : s.lookup 0xc0000201#32 localTable = none)
    (peers : ∀ src, peerProbeSource p = .ok (.v4 src) → s.lookup src localTable = none)
    (alike : ∀ r ∈ s.rules.rules, r.priority ≤ blackholePref → r.table = localTable ∨ Blind p r)
    (run : Trace PathKernel s (checkPeerPath peerCIDR) events outcome t) :
    (outcome = .done () → ∀ src, p.contains (.v4 src) = true →
      s.route (fromPeer src 0xc0000201#32) = .out egressInterface) ∧
    ∀ host, outcome = .fail (.blackholed peerProbe host) → ∀ src, p.contains (.v4 src) = true →
      s.route (fromPeer src 0xc0000201#32) = .drop := by
  have asserted := (ensureRouting_asserts (Prefix.masked_v4 family) _ _ _ _
    (reached_owned reached) asserting).foreign changed
  simp only [checkPeerPath, parsed] at run
  cases probed : peerProbeSource p with
  | error e =>
    rw [probed] at run
    cases run with
    | fail | cut => exact ⟨by simp, by simp⟩
  | ok host =>
    rw [probed] at run
    obtain ⟨bits, rfl, inside⟩ := peerProbeSource_v4 family probed
    have speaks {verdict} (src : BitVec 32) (member : p.contains (.v4 src) = true)
        (one : ∃ r, (s.resolve (fromPeer bits 0xc0000201#32)).2 = some r ∧ s.verdict r = verdict) :
        s.route (fromPeer src 0xc0000201#32) = verdict := by
      obtain ⟨r, found, judged⟩ := one
      rw [Policy.route, route_alike asserted remote alike member inside, found]
      exact judged
    rcases run.bind_cases with ⟨-, rfl⟩ | ⟨e, looks, -⟩ | ⟨result, u, _, _, looks, judges, -⟩
    · exact ⟨by simp, by simp⟩
    · rcases lookupPeerPath_run (peers bits probed) looks with stopped
        | ⟨_, ended, -⟩ <;> contradiction
    · rcases lookupPeerPath_run (peers bits probed) looks with stopped | ⟨_, ended, looked⟩
      · contradiction
      obtain rfl := Outcome.done.inj ended
      obtain ⟨through, dropped⟩ := judgePeerPath_run looked judges
      exact ⟨fun returned src member => speaks src member (through returned),
        fun host reported src member => speaks src member (dropped ⟨_, host, reported⟩)⟩

/-! The sample server, with gluetun's tunnel up. -/

def routedServer : Policy := ((ensureRouting samplePeers).play routingHandler serverPolicy).2.2

theorem routedServer_unsourced : ∀ r ∈ routedServer.rules.rules, r.src = none := by decide +kernel

theorem routedServer_resolves :
    (routedServer.resolve (fromPeer 0x0a080002#32 0xc0000201#32)).2 =
      some ⟨anywhere, 4, 0, .unicast⟩ := by
  decide +kernel

theorem routedServer_link : routedServer.linkName 4 = egressInterface := by decide +kernel

theorem routedServer_remote : routedServer.lookup 0xc0000201#32 localTable = none := by
  decide +kernel

theorem routedServer_peer : routedServer.lookup 0x0a080002#32 localTable = none := by decide +kernel

theorem samplePeers_probed : peerProbeSource samplePeers = .ok (.v4 0x0a080002#32) := by
  decide +kernel

theorem samplePeers_reach_tunnel : samplePeers.contains (.v4 0x0a080007#32) = true ∧
    routedServer.route (fromPeer 0x0a080007#32 0xc0000201#32) = .out egressInterface := by
  have asserting := play_trace routingHandler routingHandler_answers
    (ensureRouting samplePeers) serverPolicy
  have returned : ((ensureRouting samplePeers).play routingHandler serverPolicy).2.1 = .done () :=
    Outcome.value_eq_some.mp (by decide +kernel)
  rw [returned] at asserting
  have parsed : parsePrefix "10.8.0.0/24" = .ok samplePeers := by decide +kernel
  have judged : Trace PathKernel routedServer
      (judgePeerPath peerProbe (.v4 0x0a080002#32) (.ok (routedServer.linkName 4))) []
      (.done ()) routedServer := by
    rw [routedServer_link]
    exact .done
  have run : ∃ events, Trace PathKernel routedServer (checkPeerPath "10.8.0.0/24") events
      (.done ()) routedServer := by
    simp only [checkPeerPath, parsed, samplePeers_probed]
    exact ⟨_, .call ⟨rfl, .routed routedServer_resolves rfl⟩ (.call ⟨rfl, .named⟩ judged)⟩
  obtain ⟨_, run⟩ := run
  have peers (src : BitVec 32) (same : peerProbeSource samplePeers = .ok (.v4 src)) :
      routedServer.lookup src localTable = none := by
    obtain rfl := Addr.v4.inj (Except.ok.inj (samplePeers_probed.symm.trans same))
    exact routedServer_peer
  have member : samplePeers.contains (.v4 0x0a080007#32) = true := by decide
  exact ⟨member, (peer_path_speaks rfl parsed (.start (by decide) rfl rfl) asserting
    ⟨fun _ _ => rfl, rfl, rfl⟩
    routedServer_remote peers
      (fun r member _ => .inr (.unsourced (routedServer_unsourced r member))) run).1 rfl _ member⟩

end TunnelOperator.Datapath
