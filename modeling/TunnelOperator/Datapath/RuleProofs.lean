import TunnelOperator.Datapath.Routing

/-! What ensureRule leaves at the preference it asserts. -/
namespace TunnelOperator.Datapath
open Netip Net Program

section Rules
variable {s t : Policy} {want : Rule}

/-- The rules at one preference. -/
def Policy.rulesAt (s : Policy) (priority : Nat) : List Rule :=
  s.rules.rules.filter (·.priority = priority)

def Policy.Only (s : Policy) (rule : Rule) : Prop :=
  ∀ r ∈ s.rules.rules, r.priority = rule.priority → r = rule

theorem Foreign.mem_iff (changed : Foreign s t)
    (reserved : r.priority = peerRulePref ∨ r.priority = blackholePref) :
    r ∈ t.rules.rules ↔ r ∈ s.rules.rules := by
  rw [← List.count_pos_iff, ← List.count_pos_iff, changed.rules r reserved]

theorem Foreign.rulesAt (changed : Foreign s t) (reserved : n = peerRulePref ∨ n = blackholePref) :
    (t.rulesAt n).Perm (s.rulesAt n) := by
  rw [List.perm_iff_count]
  intro r
  by_cases here : r.priority = n
  · rw [Policy.rulesAt, Policy.rulesAt, List.count_filter (by simpa using here),
      List.count_filter (by simpa using here)]
    exact changed.rules r (here ▸ reserved)
  · have absent : ∀ u : Policy, (u.rulesAt n).count r = 0 := fun u =>
      List.count_eq_zero_of_not_mem fun member => here
        (by simpa using (List.mem_filter.mp member).2)
    rw [absent, absent]

theorem rulesAt_erase : Policy.rulesAt { s with rules := s.rules.erase r } n =
    (s.rulesAt n).erase r := by
  simp [Policy.rulesAt, RuleSet.erase, List.erase_filter]

theorem rulesAt_add (here : r.priority = n) :
    (Policy.rulesAt { s with rules := s.rules.add r } n).Perm (r :: s.rulesAt n) := by
  have perm := (s.rules.add_perm r).filter (·.priority = n)
  rwa [List.filter_cons_of_pos (by simpa using here)] at perm

/-- The rules at the wanted preference while it is swept: those kept and those not yet
looked at. -/
def Swept (want : Rule) (kept rest : List Rule) (s : Policy) : Prop :=
  (s.rulesAt want.priority).Perm (kept ++ rest.filter (·.priority = want.priority))

theorem sweepRules_returns (reserved : want.priority = peerRulePref ∨ want.priority = blackholePref)
    (matching : ∀ r ∈ kept, ruleMatches r want = true) (known : found = true ↔ kept ≠ [])
    (rest : List Rule) :
    Ensures RoutingKernel (Swept want kept rest) (sweepRules want found rest) fun found' t =>
      ∃ kept', Swept want kept' [] t ∧ (∀ r ∈ kept', ruleMatches r want = true) ∧
        (found' = true ↔ kept' ≠ []) := by
  induction rest generalizing kept found with
  | nil => exact ensures_done fun s swept => ⟨kept, swept, matching, known⟩
  | cons r rest ih =>
    unfold sweepRules
    split
    · rename_i elsewhere
      refine (ih matching known).weaken (fun s swept => ?_) fun _ _ => id
      rwa [Swept, List.filter_cons_of_neg (by simpa using elsewhere)] at swept
    · rename_i here
      have atWant : r.priority = want.priority := Classical.not_not.mp here
      split
      · rename_i wanted
        have more : ∀ other ∈ kept ++ [r], ruleMatches other want = true := by
          intro other member
          rcases List.mem_append.mp member with old | new
          · exact matching other old
          · rwa [List.mem_singleton.mp new]
        refine (ih more (by simp)).weaken (fun s swept => ?_) fun _ _ => id
        rw [Swept, List.append_assoc]
        rwa [Swept, List.filter_cons_of_pos (by simpa using atWant)] at swept
      · simp only [ask_bind]
        refine ensures_call fun answer => ?_
        cases answer with
        | error e => exact ensures_fail _
        | ok _ =>
          refine (ih matching known).weaken ?_ fun _ _ => id
          rintro t ⟨s, swept, u, changed, answered⟩
          cases answered with
          | deleted present =>
            rw [Swept, List.filter_cons_of_pos (by simpa using atWant)] at swept
            have before := ((changed.rulesAt reserved).trans swept).trans List.perm_middle
            rw [Swept, rulesAt_erase]
            simpa using before.erase r

/-- A rule that ensureRule keeps may still differ from the one wanted in what
ruleMatches does not read. -/
theorem ensureRule_returns
    (reserved : want.priority = peerRulePref ∨ want.priority = blackholePref) :
    Ensures RoutingKernel (fun _ => True) (ensureRule want) fun _ t =>
      (∀ r ∈ t.rulesAt want.priority, r = want ∨ ruleMatches r want = true) ∧
        t.rulesAt want.priority ≠ [] := by
  simp only [ensureRule, ask_bind]
  refine ensures_call fun answer => ?_
  cases answer with
  | error e => exact ensures_fail _
  | ok listed =>
    have nothing : ∀ r ∈ ([] : List Rule), ruleMatches r want = true := by simp
    have unfound : false = true ↔ ([] : List Rule) ≠ [] := by simp
    refine ((sweepRules_returns reserved nothing unfound listed).weaken ?_ fun _ _ => id).bind
      fun found => ?_
    · rintro t ⟨s, -, u, changed, answered⟩
      cases answered with
      | listed => exact .refl _
    · split
      · rename_i isFound
        refine ensures_done ?_
        rintro t ⟨kept, swept, matching, known⟩
        rw [Swept, List.filter_nil, List.append_nil] at swept
        refine ⟨fun r member => .inr (matching r (swept.mem_iff.mp member)), fun empty => ?_⟩
        rw [empty] at swept
        exact known.mp isFound swept.nil_eq.symm
      · rename_i missing
        simp only [addRule, ask_bind]
        refine ensures_call fun answer => ?_
        cases answer with
        | error e => exact ensures_fail _
        | ok _ =>
          refine ensures_done ?_
          rintro t ⟨s, ⟨kept, swept, -, known⟩, u, changed, answered⟩
          have none : kept = [] := by
            by_contra some
            exact missing (known.mpr some)
          rw [Swept, none, List.filter_nil, List.append_nil] at swept
          have empty := ((changed.rulesAt reserved).trans swept).eq_nil
          cases answered with
          | added =>
            have only := rulesAt_add (s := u) (r := want) rfl
            rw [empty, List.perm_singleton] at only
            rw [only]
            simp

end Rules
end TunnelOperator.Datapath
