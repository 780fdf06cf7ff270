import Mathlib.Data.List.Basic
import Mathlib.Data.List.Perm.Basic

/-! First fit from a pool: the items of a list of distinct items that are not used, taken
in the order of the list. -/
namespace TunnelOperator.Pool
variable {α : Type} {pool used : List α}

/-- In an ordered list the first item that passes comes before the others that do. -/
theorem find?_first {related : α → α → Prop} {test : α → Bool} (ordered : pool.Pairwise related)
    (found : pool.find? test = some first) (member : other ∈ pool) (passes : test other = true) :
    other = first ∨ related first other := by
  obtain ⟨-, before, after, rfl, failing⟩ := List.find?_eq_some_iff_append.mp found
  rcases List.mem_append.mp member with early | late
  · have fails := failing other early
    rw [passes] at fails
    contradiction
  · rcases List.mem_cons.mp late with same | later
    · exact .inl same
    · have rest := (List.pairwise_append.mp ordered).2.1
      exact .inr ((List.pairwise_cons.mp rest).1 other later)

variable [DecidableEq α]

def unused (pool used : List α) : List α := pool.filter (· ∉ used)

/-- Using the first unused item leaves the others. -/
theorem unused_concat (distinct : pool.Nodup) (open_ : unused pool used = item :: rest) :
    unused pool (used ++ [item]) = rest := by
  have split : unused pool (used ++ [item]) = (unused pool used).filter (· ≠ item) := by
    simp only [unused, List.filter_filter, List.mem_append, List.mem_singleton, not_or,
      Bool.decide_and]
    exact List.filter_congr fun _ _ => Bool.and_comm _ _
  have apart : (item :: rest).Nodup := open_ ▸ distinct.sublist List.filter_sublist
  rw [split, open_, List.filter_cons_of_neg (by simp), List.filter_eq_self]
  intro other member
  have new : item ∉ rest := (List.nodup_cons.mp apart).1
  simpa using fun same : other = item => new (same ▸ member)

theorem length_unused (distinct : pool.Nodup) (apart : used.Nodup) (inside : used ⊆ pool) :
    (unused pool used).length = pool.length - used.length := by
  have taken : (pool.filter (· ∈ used)).Perm used := by
    rw [List.perm_ext_iff_of_nodup (distinct.sublist List.filter_sublist) apart]
    intro item
    simpa using fun member => inside member
  have split := List.length_eq_length_filter_add (l := pool) fun item => decide (item ∈ used)
  rw [taken.length_eq] at split
  simp only [unused, decide_not]
  omega

end TunnelOperator.Pool
