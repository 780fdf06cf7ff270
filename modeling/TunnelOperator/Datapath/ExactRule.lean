import TunnelOperator.Datapath.RuleProofs

/-! Which rules ensureRule leaves when nobody interferes. A rule at the wanted preference is
kept when ruleMatches accepts it, and ruleMatches reads neither the source, the output
link, the mark nor the inversion, nor how many such rules there are. -/
namespace TunnelOperator.Datapath
open Netip Net Program

/-- A sweep for `want` leaves the rule alone. -/
def spared (want r : Rule) : Bool := r.priority ≠ want.priority || ruleMatches r want

section Sweep
variable {s t : Policy} {want : Rule}

theorem spared_elsewhere (elsewhere : r.priority ≠ want.priority) : spared want r = true := by
  simp [spared, elsewhere]

theorem spared_here (here : r.priority = want.priority) : spared want r = ruleMatches r want := by
  simp [spared, here]

theorem ruleMatches_priority (wanted : ruleMatches r want = true) : r.priority = want.priority := by
  simp only [ruleMatches, Bool.and_eq_true, decide_eq_true_eq] at wanted
  exact wanted.1.1.1

/-- The rules before `rest` have been swept, so a delete meets the rule at the head of `rest`. -/
theorem sweepRules_leaves (swept : ∀ r ∈ kept, spared want r = true)
    (rules : s.rules.rules = kept ++ rest)
    (run : Trace Answers s (sweepRules want found rest) events (.done found') t) :
    t.rules.rules = kept ++ rest.filter (spared want) ∧
      found' = (found || rest.any (ruleMatches · want)) := by
  induction rest generalizing kept found s events with
  | nil =>
    cases run
    exact ⟨by simpa using rules, by simp⟩
  | cons r rest ih =>
    -- A rule that is spared moves over to those already swept.
    have pass : ∀ {found : Bool} {events}, spared want r = true →
        Trace Answers s (sweepRules want found rest) events (.done found') t →
        t.rules.rules = kept ++ (r :: rest).filter (spared want) ∧
          found' = (found || rest.any (ruleMatches · want)) := by
      intro found events spares later
      have more : ∀ other ∈ kept ++ [r], spared want other = true := by
        simpa [or_imp, forall_and] using ⟨swept, spares⟩
      obtain ⟨left, known⟩ := ih more (by simpa using rules) later
      refine ⟨?_, known⟩
      rw [left, List.filter_cons_of_pos spares, List.append_assoc]
      rfl
    unfold sweepRules at run
    split at run
    · rename_i elsewhere
      obtain ⟨left, known⟩ := pass (spared_elsewhere elsewhere) run
      have unmatched : ruleMatches r want = false :=
        Bool.eq_false_iff.mpr fun wanted => elsewhere (ruleMatches_priority wanted)
      exact ⟨left, by rw [known, List.any_cons, unmatched, Bool.false_or]⟩
    · rename_i here
      have atWant : r.priority = want.priority := Classical.not_not.mp here
      split at run
      · rename_i wanted
        obtain ⟨left, known⟩ := pass (by rwa [spared_here atWant]) run
        exact ⟨left, by rw [known, List.any_cons, wanted]; simp⟩
      · rename_i unwanted
        have unspared : ¬ spared want r = true := by rwa [spared_here atWant]
        obtain ⟨answer, u, later, answered, after, -⟩ := run.call_returned
        cases answered with
        | failed e => cases after
        | deleted present =>
          have absent : r ∉ kept := fun member => unspared (swept r member)
          have erased : (s.rules.erase r).rules = kept ++ rest := by
            show s.rules.rules.erase r = kept ++ rest
            rw [rules, List.erase_append_right _ absent, List.erase_cons_head]
          obtain ⟨left, known⟩ := ih swept erased after
          refine ⟨by rw [left, List.filter_cons_of_neg unspared], ?_⟩
          rw [known, List.any_cons, Bool.eq_false_iff.mpr unwanted, Bool.false_or]

/-- A new rule goes after those of its preference, so no two others change places. -/
theorem rulesAt_add_other (other : r.priority ≠ n) :
    Policy.rulesAt { s with rules := s.rules.add r } n = s.rulesAt n := by
  simp only [Policy.rulesAt, RuleSet.add, List.filter_append, List.filter_filter]
  rw [List.filter_cons_of_neg (by simpa using other), List.filter_filter]
  rcases Nat.lt_or_gt_of_ne other with below | above
  · have first : s.rules.rules.filter
      (fun a => decide (a.priority = n) && decide (a.priority ≤ r.priority)) = [] := by
      rw [List.filter_eq_nil_iff]
      intro a _ both
      simp at both
      omega
    rw [first, List.nil_append]
    refine List.filter_congr fun a _ => ?_
    by_cases here : a.priority = n <;> simp [here, below]
  · have second : s.rules.rules.filter
      (fun a => decide (a.priority = n) && decide (r.priority < a.priority)) = [] := by
      rw [List.filter_eq_nil_iff]
      intro a _ both
      simp at both
      omega
    rw [second, List.append_nil]
    refine List.filter_congr fun a _ => ?_
    by_cases here : a.priority = n <;> simp [here, Nat.le_of_lt above]

/-- What is left at each preference. -/
theorem ensureRule_leaves (run : Trace Answers s (ensureRule want) events (.done ()) t) :
    (∀ n, n ≠ want.priority → t.rulesAt n = s.rulesAt n) ∧
    t.rulesAt want.priority =
      if s.rules.rules.any (ruleMatches · want) then s.rules.rules.filter (ruleMatches · want)
        else [want] := by
  simp only [ensureRule, ask_bind] at run
  obtain ⟨answer, u, later, answered, sweeping, -⟩ := run.call_returned
  cases answered with
  | failed e => cases sweeping
  | listed =>
    obtain ⟨found, v, _, _, sweep, rest, -⟩ := sweeping.bind_returned
    have nothing : ∀ r ∈ ([] : List Rule), spared want r = true := by simp
    obtain ⟨left, rfl⟩ := sweepRules_leaves nothing rfl sweep
    rw [List.nil_append] at left
    have others : ∀ n, n ≠ want.priority → v.rulesAt n = s.rulesAt n := by
      intro n other
      rw [Policy.rulesAt, left, List.filter_filter, Policy.rulesAt]
      refine List.filter_congr fun r _ => ?_
      by_cases here : r.priority = n
      · have spares : spared want r = true := spared_elsewhere (here ▸ other)
        simp [here, spares]
      · simp [here]
    have here : v.rulesAt want.priority = s.rules.rules.filter (ruleMatches · want) := by
      rw [Policy.rulesAt, left, List.filter_filter]
      refine List.filter_congr fun r _ => ?_
      by_cases atWant : r.priority = want.priority
      · simp [atWant, spared_here atWant]
      · have unmatched : ruleMatches r want = false :=
          Bool.eq_false_iff.mpr fun wanted => atWant (ruleMatches_priority wanted)
        simp [atWant, unmatched]
    rw [Bool.false_or] at rest
    split at rest
    · rename_i isFound
      cases rest
      rw [if_pos isFound]
      exact ⟨others, here⟩
    · rename_i missing
      simp only [addRule, ask_bind] at rest
      obtain ⟨answer, w, _, adding, ended, -⟩ := rest.call_returned
      cases adding with
      | failed e => cases ended
      | added =>
        cases ended
        rw [if_neg missing]
        have none : v.rulesAt want.priority = [] := by
          rw [here, List.filter_eq_nil_iff]
          intro r member wanted
          exact missing (List.any_eq_true.mpr ⟨r, member, wanted⟩)
        refine ⟨fun n other => ?_, ?_⟩
        · rw [← others n other]
          exact rulesAt_add_other (Ne.symm other)
        · have perm := rulesAt_add (s := v) (r := want) rfl
          rwa [none, List.perm_singleton] at perm

end Sweep

/-- One rule is at the wanted preference, which no packet can tell from `want`, and every
other preference is as before. -/
structure Exact (want : Rule) (s t : Policy) (r : Rule) : Prop where
  only : t.rulesAt want.priority = [r]
  selects : ∀ packet, r.selects packet = want.selects packet
  table : r.table = want.table
  others : ∀ n, n ≠ want.priority → t.rulesAt n = s.rulesAt n

/-- ensureRule leaves exactly the wanted rule if and only if the rules that ruleMatches
accepts beforehand are none, or a single one that selects what `want` selects. -/
theorem ensureRule_exact_iff (p : Prefix) (want : Rule) (_ : want ∈ desiredRules p) (s t : Policy)
    (run : Trace Answers s (ensureRule want) events (.done ()) t) :
    (∃ r, Exact want s t r) ↔
      s.rules.rules.filter (ruleMatches · want) = [] ∨
      ∃ r, s.rules.rules.filter (ruleMatches · want) = [r] ∧
        ∀ packet, r.selects packet = want.selects packet := by
  obtain ⟨others, left⟩ := ensureRule_leaves run
  have missing : s.rules.rules.any (ruleMatches · want) = true ↔
      s.rules.rules.filter (ruleMatches · want) ≠ [] := by
    simp
  constructor
  · rintro ⟨r, exact⟩
    rw [exact.only] at left
    by_cases found : s.rules.rules.any (ruleMatches · want) = true
    · rw [if_pos found] at left
      exact .inr ⟨r, left.symm, exact.selects⟩
    · exact .inl (Classical.not_not.mp fun some => found (missing.mpr some))
  · rintro (none | ⟨r, single, selects⟩)
    · rw [if_neg fun found => missing.mp found none] at left
      exact ⟨want, left, fun _ => rfl, rfl, others⟩
    · rw [if_pos (missing.mpr (by simp [single])), single] at left
      have wanted : ruleMatches r want = true := by
        have member : r ∈ s.rules.rules.filter (ruleMatches · want) := by simp [single]
        exact (List.mem_filter.mp member).2
      simp only [ruleMatches, Bool.and_eq_true, decide_eq_true_eq] at wanted
      exact ⟨r, left, selects, wanted.1.1.2, others⟩

/-! A server on which someone has narrowed the blackhole rule to one mark. -/

def quietPolicy : Policy where
  rules := ⟨[newRule 0 localTable, newRule 32766 mainTable], by decide⟩
  tables _ := .empty
  linkName _ := ""

def narrowedRule : Rule := { blackholeRule with mark := 1 }

def narrowedPolicy : Policy := { quietPolicy with rules := quietPolicy.rules.add narrowedRule }

theorem quiet_exact : ∃ r, Exact blackholeRule quietPolicy
    { quietPolicy with rules := quietPolicy.rules.add blackholeRule } r := by
  have run : Trace Answers quietPolicy (ensureRule blackholeRule)
      [⟨.ruleList, .ok quietPolicy.rules.rules⟩, ⟨.ruleAdd blackholeRule, .ok ()⟩] (.done ())
      { quietPolicy with rules := quietPolicy.rules.add blackholeRule } :=
    .call .listed (.call .added .done)
  have wanted : blackholeRule ∈ desiredRules .everyIPv4 := by simp [desiredRules]
  exact (ensureRule_exact_iff .everyIPv4 blackholeRule wanted _ _ run).mpr (.inl (by decide))

/-- The narrowed rule passes for the blackhole rule: ensureRule returns without a change,
and a peer's packet without the mark is not caught. -/
theorem narrowed_rule_kept :
    Trace Answers narrowedPolicy (ensureRule blackholeRule)
      [⟨.ruleList, .ok narrowedPolicy.rules.rules⟩] (.done ()) narrowedPolicy ∧
    blackholeRule ∈ desiredRules .everyIPv4 ∧
      ¬ ∃ r, Exact blackholeRule narrowedPolicy narrowedPolicy r := by
  refine ⟨.call .listed .done, by simp [desiredRules], ?_⟩
  rintro ⟨r, exact⟩
  have only : narrowedPolicy.rulesAt blackholeRule.priority = [narrowedRule] := by decide
  have same : narrowedRule = r := by simpa [only] using exact.only
  have caught := exact.selects ⟨0x0a080002#32, 0x01010101#32, wgInterface, "", 0⟩
  rw [← same] at caught
  revert caught
  decide

end TunnelOperator.Datapath
