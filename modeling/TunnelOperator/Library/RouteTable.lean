import Mathlib.Data.List.MinMax
import Mathlib.Data.List.Nodup
import Mathlib.Data.Prod.Lex

/-! Tables with at most one entry a slot, and the choice of the entry that matches best:
the longest match, and among the longest the one of the smallest metric. -/
namespace TunnelOperator

structure SlotTable {ρ σ : Type} (slot : ρ → σ) where
  entries : List ρ
  distinct : (entries.map slot).Nodup

namespace SlotTable
variable {ρ σ : Type} {slot : ρ → σ}

def empty : SlotTable slot := ⟨[], List.nodup_nil⟩

/-- Two entries of one slot are the same entry. -/
theorem eq_of_slot (t : SlotTable slot) (first : a ∈ t.entries) (second : b ∈ t.entries)
    (same : slot a = slot b) : a = b :=
  List.inj_on_of_nodup_map t.distinct first second same

section Replace
variable [DecidableEq σ]

/-- Whatever is at the slot of `entry` gives way to it. -/
def replace (t : SlotTable slot) (entry : ρ) : SlotTable slot where
  entries := (t.entries.filter fun e => slot e ≠ slot entry) ++ [entry]
  distinct := by
    rw [List.map_append, List.nodup_append]
    refine ⟨t.distinct.sublist (List.filter_sublist.map _), List.nodup_singleton _, ?_⟩
    rintro a member b here rfl
    obtain ⟨e, kept, rfl⟩ := List.mem_map.mp member
    have apart := of_decide_eq_true (List.mem_filter.mp kept).2
    exact apart (List.mem_singleton.mp here)

@[simp] theorem mem_replace {t : SlotTable slot} :
    e ∈ (t.replace entry).entries ↔ e ∈ t.entries ∧ slot e ≠ slot entry ∨ e = entry := by
  simp [replace]

/-- Entries of different slots do not overwrite each other. -/
theorem mem_replaceAll {t : SlotTable slot} {new : List ρ}
    (consistent : ∀ a ∈ new, ∀ b ∈ new, slot a = slot b → a = b) :
    e ∈ (new.foldl replace t).entries ↔ (e ∈ t.entries ∧ ∀ entry ∈ new, slot e ≠ slot entry) ∨
      e ∈ new := by
  induction new generalizing t with
  | nil => simp
  | cons first rest ih =>
    have later : ∀ a ∈ rest, ∀ b ∈ rest, slot a = slot b → a = b := fun a here b there =>
      consistent a (List.mem_cons_of_mem _ here) b (List.mem_cons_of_mem _ there)
    rw [List.foldl_cons, ih later, mem_replace, List.forall_mem_cons, List.mem_cons]
    constructor
    · rintro (⟨⟨member, apart⟩ | rfl, others⟩ | member)
      · exact .inl ⟨member, apart, others⟩
      · exact .inr (.inl rfl)
      · exact .inr (.inr member)
    · rintro (⟨member, apart, others⟩ | rfl | member)
      · exact .inl ⟨.inl ⟨member, apart⟩, others⟩
      · by_cases again : e ∈ rest
        · exact .inr again
        · refine .inl ⟨.inr rfl, fun entry there same => again ?_⟩
          rwa [consistent e List.mem_cons_self entry (List.mem_cons_of_mem _ there) same]
      · exact .inr member

end Replace

section Delete
variable [DecidableEq ρ]

def delete (t : SlotTable slot) (entry : ρ) : SlotTable slot where
  entries := t.entries.filter fun e => e ≠ entry
  distinct := t.distinct.sublist (List.filter_sublist.map _)

@[simp] theorem mem_delete {t : SlotTable slot} :
    e ∈ (t.delete entry).entries ↔ e ∈ t.entries ∧ e ≠ entry := by
  simp [delete]

theorem mem_deleteAll {t : SlotTable slot} (stale : List ρ) :
    e ∈ (stale.foldl delete t).entries ↔ e ∈ t.entries ∧ e ∉ stale := by
  induction stale generalizing t with
  | nil => simp
  | cons entry rest ih =>
    rw [List.foldl_cons, ih, mem_delete, List.mem_cons, not_or, and_assoc]

end Delete
end SlotTable

section Match
variable {ρ : Type} {covers : ρ → Bool} {length metric : ρ → Nat} {entries : List ρ} {best : ρ}

def bestMatch (covers : ρ → Bool) (length metric : ρ → Nat) (entries : List ρ) : Option ρ :=
  (entries.filter covers).argmax fun e => toLex (length e, OrderDual.toDual (metric e))

theorem bestMatch_some (found : bestMatch covers length metric entries = some best) :
    (best ∈ entries ∧ covers best = true) ∧ ∀ e ∈ entries, covers e = true →
      length e < length best ∨ length e = length best ∧ metric best ≤ metric e := by
  refine ⟨List.mem_filter.mp (List.argmax_mem found), fun e member covered => ?_⟩
  have bound := List.le_of_mem_argmax (List.mem_filter.mpr ⟨member, covered⟩) found
  rcases Prod.Lex.le_iff.mp bound with longer | ⟨same, smaller⟩
  · exact .inl longer
  · exact .inr ⟨same, smaller⟩

theorem bestMatch_none : bestMatch covers length metric entries = none ↔
    ∀ e ∈ entries, covers e = false := by
  rw [bestMatch, List.argmax_eq_none, List.filter_eq_nil_iff]
  simp

end Match
end TunnelOperator
