import Mathlib.Data.List.Basic

/-! Rules tried in ascending order of preference, each of which may leave the decision
to the next. -/
namespace TunnelOperator

structure RuleSet {ρ : Type} (pref : ρ → Nat) where
  rules : List ρ
  sorted : rules.Pairwise fun a b => pref a ≤ pref b

namespace RuleSet
variable {ρ : Type} {pref : ρ → Nat}

/-- A new rule comes after those of its preference. -/
def add (s : RuleSet pref) (new : ρ) : RuleSet pref where
  rules := s.rules.filter (pref · ≤ pref new) ++ new :: s.rules.filter (pref new < pref ·)
  sorted := by
    rw [List.pairwise_append, List.pairwise_cons]
    refine ⟨s.sorted.sublist List.filter_sublist,
      ⟨fun b member => ?_, s.sorted.sublist List.filter_sublist⟩, ?_⟩
    · exact Nat.le_of_lt (of_decide_eq_true (List.mem_filter.mp member).2)
    · intro a early b late
      have before : pref a ≤ pref new := of_decide_eq_true (List.mem_filter.mp early).2
      rcases List.mem_cons.mp late with rfl | after
      · exact before
      · exact Nat.le_trans before (Nat.le_of_lt (of_decide_eq_true (List.mem_filter.mp after).2))

theorem add_perm (s : RuleSet pref) (new : ρ) : (s.add new).rules.Perm (new :: s.rules) := by
  have parts : (s.rules.filter (pref · ≤ pref new) ++ s.rules.filter (pref new < pref ·)).Perm
      s.rules := by
    have rest : s.rules.filter (pref new < pref ·) = s.rules.filter fun r => !decide
        (pref r ≤ pref new) := by
      refine List.filter_congr fun r _ => ?_
      rw [← decide_not]
      exact decide_eq_decide.mpr Nat.not_le.symm
    rw [rest]
    exact List.filter_append_perm _ _
  exact List.perm_middle.trans (parts.cons new)

def erase [DecidableEq ρ] (s : RuleSet pref) (old : ρ) : RuleSet pref where
  rules := s.rules.erase old
  sorted := s.sorted.sublist List.erase_sublist

end RuleSet

section Walk
variable {ρ τ δ : Type} {pref : ρ → Nat} {selects : ρ → Bool} {table : ρ → τ}
    {lookup : τ → Option δ}

/-- The tables that the rules selecting a packet look up, in order, until one of them has
an answer; and that answer. -/
def walk (selects : ρ → Bool) (table : ρ → τ) (lookup : τ → Option δ) : List ρ → List τ × Option δ
  | [] => ([], none)
  | rule :: rest =>
    if selects rule then
      match lookup (table rule) with
      | some found => ([table rule], some found)
      | none => let (tables, found) := walk selects table lookup rest; (table rule :: tables, found)
    else walk selects table lookup rest

/-- A rule that answers ends the walk: only the rules up to its preference have a say. -/
theorem walk_before {rules : List ρ} {catchAll : ρ} {good : δ → Prop} {allowed : τ → Prop}
    (sorted : rules.Pairwise fun a b => pref a ≤ pref b) (member : catchAll ∈ rules)
    (catching : selects catchAll = true) (answers : lookup (table catchAll) ≠ none)
    (before : ∀ r ∈ rules, pref r ≤ pref catchAll → selects r = true →
      allowed (table r) ∧ ∀ found, lookup (table r) = some found → good found) :
    (∀ t ∈ (walk selects table lookup rules).1, allowed t) ∧
      ∃ found, (walk selects table lookup rules).2 = some found ∧ good found := by
  induction rules with
  | nil => cases member
  | cons r rest ih =>
    obtain ⟨first, later⟩ := List.pairwise_cons.mp sorted
    have early : pref r ≤ pref catchAll := by
      rcases List.mem_cons.mp member with rfl | after
      · exact Nat.le_refl _
      · exact first _ after
    have tail : catchAll ∈ rest → _ := fun after =>
      ih later after fun other there => before other (List.mem_cons_of_mem _ there)
    unfold walk
    split
    · rename_i selected
      obtain ⟨permitted, sound⟩ := before r List.mem_cons_self early selected
      split
      · rename_i found looked
        exact ⟨by simpa using permitted, found, rfl, sound found looked⟩
      · rename_i missing
        rcases List.mem_cons.mp member with rfl | after
        · exact absurd missing answers
        · obtain ⟨tables, answer⟩ := tail after
          refine ⟨fun t here => ?_, answer⟩
          rcases List.mem_cons.mp here with rfl | there
          · exact permitted
          · exact tables t there
    · rename_i unselected
      rcases List.mem_cons.mp member with rfl | after
      · exact absurd catching unselected
      · exact tail after

/-- Two selections that agree on the rules up to one that answers, apart from rules whose
table has no answer, find the same. -/
theorem walk_agree {other : ρ → Bool} {rules : List ρ} {catchAll : ρ}
    (sorted : rules.Pairwise fun a b => pref a ≤ pref b) (member : catchAll ∈ rules)
    (caught : other catchAll = true) (answers : lookup (table catchAll) ≠ none)
    (same : ∀ r ∈ rules, pref r ≤ pref catchAll → selects r = other r ∨ lookup (table r) = none) :
    (walk selects table lookup rules).2 = (walk other table lookup rules).2 := by
  induction rules with
  | nil => cases member
  | cons r rest ih =>
    obtain ⟨first, later⟩ := List.pairwise_cons.mp sorted
    cases found : lookup (table r) with
    | some answer =>
      have early : pref r ≤ pref catchAll := by
        rcases List.mem_cons.mp member with rfl | after
        · exact Nat.le_refl _
        · exact first _ after
      have equal : selects r = other r :=
        (same r List.mem_cons_self early).resolve_right (by simp [found])
      by_cases selected : other r = true
      · simp [walk, equal, selected, found]
      · rcases List.mem_cons.mp member with rfl | after
        · contradiction
        · have tail := ih later after fun o there => same o (List.mem_cons_of_mem _ there)
          simp [walk, equal, selected, tail]
    | none =>
      rcases List.mem_cons.mp member with rfl | after
      · contradiction
      · have tail := ih later after fun o there => same o (List.mem_cons_of_mem _ there)
        simp only [walk, found]
        split <;> split <;> exact tail

end Walk
end TunnelOperator
