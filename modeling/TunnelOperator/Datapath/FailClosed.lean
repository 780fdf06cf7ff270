import TunnelOperator.Datapath.Assertion
import TunnelOperator.Datapath.Firewall

/-! The server fails closed: once the agent has asserted a peerCIDR, a peer's packet
leaves through the tunnel or not at all. -/
namespace TunnelOperator.Datapath
open Netip Net Program

def Within (localCIDRs : List Prefix) (dst : BitVec 32) : Prop :=
  ∃ c ∈ localCIDRs, c.contains (.v4 dst) = true

/-- A rule between the agent's two that keeps the peers of `p` away from eth0 outside
localCIDRs: it asks for another source, or for a destination inside localCIDRs, or its
own table goes to tun0, and to eth0 only for destinations inside localCIDRs. -/
inductive Confined (p : Prefix) (localCIDRs : List Prefix) (s : Policy) (rule : Rule) : Prop where
  | source (others : ∀ packet, rule.selects packet = true → p.contains (.v4 packet.src) = false)
  | destination (inside : ∀ packet, rule.selects packet = true → Within localCIDRs packet.dst)
  | table (own : rule.table ≠ mainTable)
      (routes : ∀ r ∈ (s.tables rule.table).entries, r.type = .unicast ∧
        (s.linkName r.linkIndex = egressInterface ∨
        s.linkName r.linkIndex = podInterface ∧ ∀ dst, r.dst.contains (.v4 dst) = true →
          Within localCIDRs dst))

/-- A successful assertion of `p`, at whatever point of the agent's history, makes the
server fail closed, whatever others do next at other preferences and in other tables. -/
theorem server_fails_closed (p : Prefix) (localCIDRs : List Prefix) (s t u : Policy)
    (family : p.addr.is4 = true)
    (reached : Reached s) (asserting : Trace RoutingKernel s (ensureRouting p) events (.done ()) t)
    (changed : Foreign t u) (first : ∀ r ∈ u.rules.rules, r.priority < peerRulePref →
      r.table = localTable)
    (between : ∀ r ∈ u.rules.rules, peerRulePref < r.priority → r.priority < blackholePref →
      Confined p localCIDRs u r) :
    (∀ packet : Packet, packet.iif = wgInterface → p.contains (.v4 packet.src) = true →
      u.lookup packet.dst localTable = none → p.contains (.v4 packet.dst) = false →
        ¬ Within localCIDRs packet.dst →
      mainTable ∉ (u.resolve packet).1 ∧
        (u.route packet = .out egressInterface ∨ u.route packet = .drop)) ∧
    ∀ (asserted : List Prefix) (chain : List IptablesRule), (∀ q ∈ asserted, q.addr.is4 = true) →
      (∀ r ∈ chain, r.table = "filter" ∧ ∃ q ∈ asserted, r ∈ rules q) →
      ∀ (packet : Packet) (ctstate link : String), packet.iif = wgInterface →
        u.fate "DROP" chain packet ctstate = .out link →
        link = egressInterface ∧ ∃ q ∈ asserted, q.contains (.v4 packet.src) = true := by
  obtain ⟨base, v4⟩ : ∃ base, p.addr = .v4 base := by
    cases address : p.addr with
    | v4 base => exact ⟨base, rfl⟩
    | v6 value zone => simp [address, Addr.is4] at family
  have asserted := (ensureRouting_asserts v4 _ _ _ _ (reached_owned reached) asserting).foreign
    changed
  constructor
  · intro packet arrived peer remote elsewhere outside
    have catching : blackholeRule.selects packet = true := by
      simp [Rule.selects, blackholeRule, newRule, Rule.effectiveMask, arrived]
    have answers : u.lookup packet.dst blackholeRule.table ≠ none := by
      rw [show blackholeRule.table = blackholeTable from rfl, lookup_blackhole asserted]
      simp
    -- The rules up to the blackhole, by preference: local, the peers', gluetun's, the blackhole.
    have before : ∀ r ∈ u.rules.rules, r.priority ≤ blackholeRule.priority →
        r.selects packet = true →
        r.table ≠ mainTable ∧ ∀ found, u.lookup packet.dst r.table = some found →
          u.verdict found = .out egressInterface ∨ u.verdict found = .drop := by
      intro r member early selected
      rcases Nat.lt_trichotomy r.priority peerRulePref with low | here | above
      · rw [first r member low, remote]
        exact ⟨by decide, by simp⟩
      · rw [asserted.peer r member here] at selected
        simp [Rule.selects, peerRule, newRule, Rule.effectiveMask, elsewhere] at selected
      · rcases Nat.lt_or_eq_of_le early with inner | last
        · cases between r member above inner with
          | source others => exact absurd ((others packet selected).symm.trans peer) (by decide)
          | destination inside => exact absurd (inside packet selected) outside
          | table own routes =>
            refine ⟨own, fun found looked => .inl ?_⟩
            obtain ⟨⟨listed, covers⟩, -⟩ := bestMatch_some looked
            obtain ⟨unicast, tunnel | ⟨-, only⟩⟩ := routes found listed
            · simp [Policy.verdict, unicast, tunnel]
            · exact absurd (only packet.dst covers) outside
        · rw [asserted.blackhole r member last]
          refine ⟨by decide, fun found looked => .inr ?_⟩
          rw [show blackholeRule.table = blackholeTable from rfl,
            lookup_blackhole asserted] at looked
          rw [← Option.some.inj looked]
          rfl
    have walked : (∀ table ∈ (u.resolve packet).1, table ≠ mainTable) ∧
        ∃ found, (u.resolve packet).2 = some found ∧
        (u.verdict found = .out egressInterface ∨ u.verdict found = .drop) :=
      walk_before u.rules.sorted asserted.closed catching answers before
    obtain ⟨tables, found, resolved, good⟩ := walked
    refine ⟨fun member => tables _ member rfl, ?_⟩
    rwa [Policy.route, resolved]
  · intro prefixes chain families only packet ctstate link arrived leaves
    unfold Policy.fate at leaves
    split at leaves
    · split at leaves
      · rename_i accepted
        obtain rfl := Verdict.out.inj leaves
        exact accepted_from_wg families only arrived accepted
      · contradiction
    · contradiction
    · contradiction

/-! A server pod with gluetun's tunnel up. -/

section Sample

/-- A kernel that can be run: every call succeeds and nobody interferes. -/
def routingHandler : Handler RoutingCall RoutingAnswer Policy := fun s request =>
  match request with
  | .linkByName name => (if s.linkName 3 = name then .ok 3 else .error "Link not found", s)
  | .routeReplace table r => (.ok (), s.replaceRoute table r)
  | .ruleList => (.ok s.rules.rules, s)
  | .ruleDel r => if r ∈ s.rules.rules then (.ok (), { s with rules := s.rules.erase r })
    else (.error "not found", s)
  | .ruleAdd r => (.ok (), { s with rules := s.rules.add r })

theorem routingHandler_answers (s : Policy) (request : RoutingCall) :
    RoutingKernel s request (routingHandler s request).1 (routingHandler s request).2 := by
  refine ⟨s, ⟨fun _ _ => rfl, rfl, rfl⟩, ?_⟩
  cases request with
  | linkByName name =>
    simp only [routingHandler]
    split
    · rename_i named
      exact .link named
    · exact .failed _
  | routeReplace table r => exact .replaced
  | ruleList => exact .listed
  | ruleDel r =>
    simp only [routingHandler]
    split
    · rename_i present
      exact .deleted present
    · exact .failed _
  | ruleAdd r => exact .added

theorem twelve_fits : 12 ≤ (Addr.v4 0x0a600000#32).bitLen := by decide

def sampleServices : Prefix := ⟨.v4 0x0a600000#32, 12, twelve_fits⟩
def samplePeers : Prefix := ⟨.v4 0x0a080000#32, 24, by decide⟩
def anywhere : Prefix := .everyIPv4

def localRule : Rule := newRule 0 localTable
def subnetRule : Rule := { newRule 99 mainTable with dst := some sampleServices }
def tunnelRule : Rule := { newRule 101 51820 with mark := 51820, invert := true }
def mainRule : Rule := newRule 32766 mainTable

def serverPolicy : Policy where
  rules := ⟨[localRule, subnetRule, tunnelRule, mainRule], by decide⟩
  tables table :=
    if table = localTable then ⟨[⟨⟨.v4 0x0a080001#32, 32, by decide⟩, 3, 0, .local⟩], by decide⟩
    else if table = 51820 then ⟨[⟨anywhere, 4, 0, .unicast⟩], by decide⟩
    else if table = mainTable then ⟨[⟨anywhere, 2, 0, .unicast⟩], by decide⟩
    else ⟨[], by decide⟩
  linkName index := (["", "lo", "eth0", "wg0", "tun0"][index]?).getD ""

/-- A peer's packet to a host of the internet. -/
def outbound : Packet := ⟨0x0a080002#32, 0xc0000201#32, "wg0", "", 0⟩

theorem server_fails_closed_for_outbound : ∃ u : Policy,
    u.rules.rules = [localRule, peerRule samplePeers, subnetRule, tunnelRule,
      blackholeRule, mainRule] ∧
    mainTable ∉ (u.resolve outbound).1 ∧
      (u.route outbound = .out egressInterface ∨ u.route outbound = .drop) := by
  have run := play_trace routingHandler routingHandler_answers
    (ensureRouting samplePeers) serverPolicy
  have returned : ((ensureRouting samplePeers).play routingHandler serverPolicy).2.1 = .done () :=
    Outcome.value_eq_some.mp (by decide +kernel)
  rw [returned] at run
  have after : ((ensureRouting samplePeers).play routingHandler serverPolicy).2.2.rules.rules =
      [localRule, peerRule samplePeers, subnetRule, tunnelRule, blackholeRule, mainRule] := by
        decide +kernel
  have tunnel : (((ensureRouting samplePeers).play routingHandler serverPolicy).2.2.tables
      51820).entries =
      [⟨anywhere, 4, 0, .unicast⟩] := by decide +kernel
  have closed := server_fails_closed samplePeers [sampleServices] serverPolicy _ _ rfl
    (.start (by decide) rfl rfl) run ⟨fun _ _ => rfl, rfl, rfl⟩ (by rw [after]; decide) (by
      rw [after]
      intro r member above below
      simp only [List.mem_cons, List.not_mem_nil, or_false] at member
      rcases member with rfl | rfl | rfl | rfl | rfl | rfl
      · exact absurd above (by decide)
      · exact absurd above (by decide)
      · refine .destination fun packet selected => ⟨sampleServices, by simp, ?_⟩
        simp [Rule.selects, subnetRule, newRule] at selected
        exact selected.1
      · refine .table (by decide) fun r member => ?_
        rw [show tunnelRule.table = 51820 from rfl, tunnel] at member
        rw [List.mem_singleton.mp member]
        exact ⟨rfl, .inl (by decide +kernel)⟩
      · exact absurd below (by decide)
      · exact absurd below (by decide))
  have outside : ¬ Within [sampleServices] outbound.dst := by
    simp [Within, sampleServices, outbound, Prefix.contains, Prefix.sameBits]
  exact ⟨_, after, closed.1 outbound rfl (by decide) (by decide +kernel) (by decide) outside⟩

end Sample
end TunnelOperator.Datapath
