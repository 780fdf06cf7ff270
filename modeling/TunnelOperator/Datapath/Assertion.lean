import TunnelOperator.Datapath.RuleProofs
import TunnelOperator.Standard.PrefixProofs

/-! What is the agent's stays the agent's, and what a pass of ensureRouting leaves. -/
namespace TunnelOperator.Datapath
open Netip Net Program

section Owned
variable {s t : Policy} {p : Prefix} {base : BitVec 32}

/-- Whatever is at the agent's preferences and in its tables is the agent's. -/
structure Owned (s : Policy) : Prop where
  peers : ∀ r ∈ s.rules.rules, r.priority = peerRulePref → ∃ q base, q.addr = .v4 base ∧
    r = peerRule q
  blackhole : s.Only blackholeRule
  routes : ∀ r ∈ (s.tables blackholeTable).entries, r = blackholeRoute

/-- The calls ensureRouting makes. -/
def Asserts (p : Prefix) : RoutingCall → Prop
  | .ruleAdd r => r ∈ desiredRules p
  | .routeReplace table r => table = blackholeTable → r = blackholeRoute
  | _ => True

theorem ensureRule_safe {allowed : RoutingCall → Prop} (lists : allowed .ruleList)
    (deletes : ∀ r, allowed (.ruleDel r)) (adds : allowed (.ruleAdd want)) :
    (ensureRule want).Safe (fun _ _ => True) allowed fun _ => True := by
  have sweep : ∀ listed found, (sweepRules want found listed).Safe
      (fun _ _ => True) allowed fun _ => True := by
    intro listed
    induction listed with
    | nil => exact fun _ => trivial
    | cons r rest ih =>
      intro found
      unfold sweepRules
      split
      · exact ih found
      · split
        · exact ih true
        · refine ⟨deletes r, fun answer _ => ?_⟩
          cases answer with
          | error e => trivial
          | ok _ => exact ih found
  refine ⟨lists, fun answer _ => ?_⟩
  cases answer with
  | error e => trivial
  | ok listed =>
    refine (sweep listed false).bind fun found _ => ?_
    split
    · trivial
    · refine ⟨adds, fun answer _ => ?_⟩
      cases answer <;> trivial

theorem replaceRoute_safe {allowed : RoutingCall → Prop}
    (replaces : allowed (.routeReplace table r)) :
    (replaceRoute table r).Safe (fun _ _ => True) allowed fun _ => True := by
  refine ⟨replaces, fun answer _ => ?_⟩
  cases answer <;> trivial

theorem peerTable_ne_blackholeTable : peerTable ≠ blackholeTable := by decide

theorem ensureRouting_safe (p : Prefix) :
    (ensureRouting p).Safe (fun _ _ => True) (Asserts p) fun _ => True := by
  refine ⟨trivial, fun answer _ => ?_⟩
  cases answer with
  | error e => trivial
  | ok wgIndex =>
    refine (replaceRoute_safe fun same => absurd same peerTable_ne_blackholeTable).bind
      fun _ _ => ?_
    refine (replaceRoute_safe fun _ => rfl).bind fun _ _ => ?_
    refine (ensureRule_safe trivial (fun _ => trivial) (by simp [Asserts, desiredRules])).bind
      fun _ _ => ?_
    exact (ensureRule_safe trivial (fun _ => trivial) (by simp [Asserts, desiredRules])).bind
      fun _ _ => trivial

theorem Owned.foreign (owned : Owned s) (changed : Foreign s t) : Owned t where
  peers r member here := owned.peers r ((changed.mem_iff (.inl here)).mp member) here
  blackhole r member here := owned.blackhole r ((changed.mem_iff (.inr here)).mp member) here
  routes := by
    rw [changed.blackholeTable]
    exact owned.routes

theorem mem_rules_add : r ∈ (s.rules.add new).rules ↔ r = new ∨ r ∈ s.rules.rules := by
  rw [(s.rules.add_perm new).mem_iff, List.mem_cons]

theorem mem_replaceRoute : e ∈ ((s.replaceRoute table r).tables other).entries ↔
    if other = table then e ∈ (s.tables table).entries ∧ e.slot ≠ r.slot ∨ e = r
      else e ∈ (s.tables other).entries := by
  unfold Policy.replaceRoute
  split
  · rename_i same
    subst same
    simp
  · rename_i differs
    simp [Function.update_of_ne differs]

theorem Owned.step (family : p.addr = .v4 base) (owned : Owned s) (asserts : Asserts p request)
    (answered : RoutingKernel s request answer t) : Owned t := by
  obtain ⟨u, changed, answered⟩ := answered
  have before := owned.foreign changed
  cases answered with
  | link | listed | failed => exact before
  | replaced =>
    refine ⟨before.peers, before.blackhole, fun e member => ?_⟩
    rw [mem_replaceRoute] at member
    split at member
    · rename_i same
      subst same
      rcases member with ⟨old, -⟩ | rfl
      · exact before.routes e old
      · exact asserts rfl
    · exact before.routes e member
  | deleted =>
    exact ⟨fun r member => before.peers r (List.mem_of_mem_erase member),
      fun r member => before.blackhole r (List.mem_of_mem_erase member), before.routes⟩
  | added =>
    simp only [Asserts, desiredRules, List.mem_cons, List.not_mem_nil, or_false] at asserts
    refine ⟨fun r member here => ?_, fun r member here => ?_, before.routes⟩
    · rcases mem_rules_add.mp member with rfl | old
      · rcases asserts with rfl | rfl
        · exact ⟨p, base, family, rfl⟩
        · exact absurd here (by decide)
      · exact before.peers r old here
    · rcases mem_rules_add.mp member with rfl | old
      · rcases asserts with rfl | rfl
        · exact absurd here (show ¬ peerRulePref = blackholePref by decide)
        · rfl
      · exact before.blackhole r old here

theorem reached_owned (reached : Reached s) : Owned s := by
  induction reached with
  | start unused peers blackhole =>
    refine ⟨fun r member here => absurd here (unused r member).1,
      fun r member here => absurd here (unused r member).2, ?_⟩
    rw [blackhole]
    exact fun _ none => absurd none List.not_mem_nil
  | foreign before changed ih => exact ih.foreign changed
  | @pass s p events outcome t before four run ih =>
    cases family : p.addr with
    | v6 value zone => simp [family, Addr.is4] at four
    | v4 base =>
      exact (run.safe (ensureRouting_safe p) (fun asserts answered owned =>
        ⟨trivial, owned.step family asserts answered⟩) ih).1

/-- A reserved rule that ruleMatches takes for the wanted one is it. -/
theorem eq_peerRule (family : p.addr = .v4 base) (owned : Owned s) (member : r ∈ s.rules.rules)
    (here : r.priority = peerRulePref) (matching : ruleMatches r (peerRule p) = true) :
    r = peerRule p := by
  obtain ⟨q, base', family', rfl⟩ := owned.peers r member here
  simp only [ruleMatches, Bool.and_eq_true, decide_eq_true_eq] at matching
  have text : q.string = p.string := matching.1.2
  have parsed : parsePrefix q.string = .ok q := parsePrefix_string family'
  rw [text, parsePrefix_string family] at parsed
  rw [Except.ok.inj parsed]

end Owned

section Asserted
variable {s t u : Policy} {p : Prefix} {base : BitVec 32}

/-- What a successful pass for `p` leaves. -/
structure Asserted (p : Prefix) (s : Policy) : Prop extends Owned s where
  peer : s.Only (peerRule p)
  closed : blackholeRule ∈ s.rules.rules
  route : blackholeRoute ∈ (s.tables blackholeTable).entries

theorem Asserted.foreign (asserted : Asserted p s) (changed : Foreign s t) : Asserted p t where
  toOwned := asserted.toOwned.foreign changed
  peer r member here := asserted.peer r ((changed.mem_iff (.inl here)).mp member) here
  closed := (changed.mem_iff (.inr rfl)).mpr asserted.closed
  route := by
    rw [changed.blackholeTable]
    exact asserted.route

theorem replaceRoute_returns (pre : Policy → Prop) (stable : ∀ s t, Foreign s t → pre s → pre t) :
    Ensures RoutingKernel pre (replaceRoute table r) fun _ t => ∃ s, pre s ∧
      t = s.replaceRoute table r := by
  simp only [replaceRoute, ask_bind]
  refine ensures_call fun answer => ?_
  cases answer with
  | error e => exact ensures_fail _
  | ok _ =>
    refine ensures_done ?_
    rintro t ⟨s, holds, u, changed, answered⟩
    cases answered with
    | replaced => exact ⟨u, stable s u changed holds, rfl⟩

/-- Everything but the rules at another preference survives ensureRule. -/
theorem ensureRule_keeps (family : p.addr = .v4 base) (member : want ∈ desiredRules p) :
    Ensures RoutingKernel (fun s => Owned s ∧ blackholeRoute ∈ (s.tables blackholeTable).entries)
      (ensureRule want)
      fun _ t => Owned t ∧ blackholeRoute ∈ (t.tables blackholeTable).entries := by
  have safe : (ensureRule want).Safe (fun _ _ => True)
      (fun request => Asserts p request ∧ ∀ table r, request ≠ .routeReplace table r)
        fun _ => True :=
    ensureRule_safe ⟨trivial, nofun⟩ (fun _ => ⟨trivial, nofun⟩) ⟨member, nofun⟩
  refine ensures_invariant safe fun permitted answered holds =>
    ⟨holds.1.step family permitted.1 answered, ?_⟩
  obtain ⟨u, changed, answered⟩ := answered
  have before := changed.blackholeTable ▸ holds.2
  cases answered with
  | link | listed | failed | deleted | added => exact before
  | replaced => exact absurd rfl (permitted.2 _ _)

theorem ensureRule_keeps_peer :
    Ensures RoutingKernel (fun s => s.Only (peerRule p)) (ensureRule blackholeRule) fun _ t =>
      t.Only (peerRule p) := by
  have safe : (ensureRule blackholeRule).Safe (fun _ _ => True)
      (fun request => ∀ r, request = .ruleAdd r → r = blackholeRule) fun _ => True :=
    ensureRule_safe nofun (fun _ => nofun) (by rintro r ⟨⟩; rfl)
  refine ensures_invariant safe ?_
  rintro s request answer t permitted ⟨u, changed, answered⟩ only r member here
  have before : u.Only (peerRule p) :=
    fun r member here => only r ((changed.mem_iff (.inl here)).mp member) here
  cases answered with
  | link | listed | failed | replaced => exact before r member here
  | deleted => exact before r (List.mem_of_mem_erase member) here
  | added =>
    rcases mem_rules_add.mp member with rfl | old
    · rw [permitted _ rfl] at here
      exact absurd here (show ¬ blackholePref = peerRulePref by decide)
    · exact before r old here

theorem ensureRouting_asserts (family : p.addr = .v4 base) :
    Ensures RoutingKernel Owned (ensureRouting p) fun _ t => Asserted p t := by
  simp only [ensureRouting, ask_bind]
  refine ensures_call fun answer => ?_
  cases answer with
  | error e => exact ensures_fail _
  | ok wgIndex =>
    have linked : ∀ t, (∃ s, Owned s ∧ RoutingKernel s (.linkByName wgInterface) (.ok wgIndex) t) →
        Owned t := by
      rintro t ⟨s, owned, answered⟩
      have asserts : Asserts p (.linkByName wgInterface) := trivial
      exact owned.step family asserts answered
    have owned := fun s t changed (before : Owned s) => before.foreign (t := t) changed
    refine ((replaceRoute_returns Owned owned).weaken linked fun _ _ => id).bind fun _ => ?_
    have peers : ∀ t, (∃ s, Owned s ∧ t = s.replaceRoute peerTable (peerRoute wgIndex p)) →
        Owned t := by
      rintro t ⟨s, before, rfl⟩
      refine ⟨before.peers, before.blackhole, fun e member => before.routes e ?_⟩
      rwa [mem_replaceRoute, if_neg peerTable_ne_blackholeTable.symm] at member
    refine ((replaceRoute_returns Owned owned).weaken peers fun _ _ => id).bind fun _ => ?_
    have routed : ∀ t, (∃ s, Owned s ∧ t = s.replaceRoute blackholeTable blackholeRoute) →
        Owned t ∧ blackholeRoute ∈ (t.tables blackholeTable).entries := by
      rintro t ⟨s, before, rfl⟩
      refine ⟨⟨before.peers, before.blackhole, fun e member => ?_⟩, ?_⟩
      · rw [mem_replaceRoute, if_pos rfl] at member
        rcases member with ⟨old, -⟩ | rfl
        · exact before.routes e old
        · rfl
      · rw [mem_replaceRoute, if_pos rfl]
        exact .inr rfl
    have first := (ensureRule_keeps family
      (show peerRule p ∈ desiredRules p by simp [desiredRules])).and (ensureRule_returns (.inl rfl))
    refine (first.weaken (fun t reached => ⟨routed t reached, trivial⟩) fun _ _ => id).bind fun _ =>
      ?_
    have second := ((ensureRule_keeps family
      (show blackholeRule ∈ desiredRules p by simp [desiredRules])).and
      (ensureRule_keeps_peer (p := p))).and (ensureRule_returns (.inr rfl))
    refine (second.weaken ?_ fun _ _ => id).bind fun _ => ensures_done ?_
    · rintro t ⟨⟨own, route⟩, matching, -⟩
      refine ⟨⟨⟨own, route⟩, fun r member here => ?_⟩, trivial⟩
      rcases matching r (List.mem_filter.mpr ⟨member, by simpa using here⟩) with same | alike
      · exact same
      · exact eq_peerRule family own member here alike
    · rintro t ⟨⟨⟨own, route⟩, only⟩, -, nonempty⟩
      obtain ⟨r, member⟩ := List.exists_mem_of_ne_nil _ nonempty
      obtain ⟨present, here⟩ := List.mem_filter.mp member
      have same := own.blackhole r present (by simpa using here)
      exact { toOwned := own, peer := only, closed := same ▸ present, route := route }

theorem lookup_blackhole (asserted : Asserted p s) (dst : BitVec 32) :
    s.lookup dst blackholeTable = some blackholeRoute := by
  cases found : s.lookup dst blackholeTable with
  | none =>
    have uncovered := bestMatch_none.mp found _ asserted.route
    rw [show blackholeRoute.dst = .everyIPv4 from rfl, Prefix.everyIPv4_contains] at uncovered
    contradiction
  | some r => rw [asserted.routes r (bestMatch_some found).1.1]

end Asserted
end TunnelOperator.Datapath
