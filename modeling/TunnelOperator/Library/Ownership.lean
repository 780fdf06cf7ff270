import Mathlib.Data.List.Nodup
import Mathlib.Tactic.Common

/-! A table of owners and of the items they hold, where an item has one owner: taking it
for one owner takes it from every other. A batch of changes to different owners that take
different items has one outcome, whatever its order. -/
namespace TunnelOperator

/-- `items` lists every held item with its owner, in the order in which they were taken. -/
structure Ownership (κ ν : Type) where
  owners : List κ
  items : List (ν × κ)
  distinct : owners.Nodup
  single : (items.map (·.1)).Nodup
  owned : ∀ item ∈ items, item.2 ∈ owners

namespace Ownership
variable {κ ν : Type} [DecidableEq κ] [DecidableEq ν]

def held (t : Ownership κ ν) (owner : κ) : List ν :=
  (t.items.filter fun item => item.2 = owner).map (·.1)

omit [DecidableEq κ] [DecidableEq ν] in
theorem nothing_owned : ∀ item ∈ ([] : List (ν × κ)), item.2 ∈ ([] : List κ) :=
  fun _ member => absurd member List.not_mem_nil

def empty : Ownership κ ν := ⟨[], [], List.nodup_nil, List.nodup_nil, nothing_owned⟩

/-- The owner keeps its place and gives up all its items. -/
def release (t : Ownership κ ν) (owner : κ) : Ownership κ ν where
  owners := t.owners
  items := t.items.filter fun item => item.2 ≠ owner
  distinct := t.distinct
  single := t.single.sublist (List.filter_sublist.map _)
  owned item member := t.owned item (List.mem_filter.mp member).1

def remove (t : Ownership κ ν) (owner : κ) : Ownership κ ν where
  owners := t.owners.erase owner
  items := (t.release owner).items
  distinct := t.distinct.erase owner
  single := (t.release owner).single
  owned item member := by
    obtain ⟨held, apart⟩ := List.mem_filter.mp member
    exact (t.distinct.mem_erase_iff).mpr ⟨by simpa using apart, t.owned item held⟩

def enroll (t : Ownership κ ν) (owner : κ) : Ownership κ ν where
  owners := if owner ∈ t.owners then t.owners else t.owners ++ [owner]
  items := t.items
  distinct := by
    split
    · exact t.distinct
    · rename_i absent
      exact List.nodup_append.mpr ⟨t.distinct, List.nodup_singleton _, by
        rintro a member b here rfl
        exact absent (List.mem_singleton.mp here ▸ member)⟩
  single := t.single
  owned item member := by
    split
    · exact t.owned item member
    · exact List.mem_append_left _ (t.owned item member)

omit [DecidableEq ν] in
theorem mem_enroll {t : Ownership κ ν} : other ∈ (t.enroll owner).owners ↔ other = owner ∨
    other ∈ t.owners := by
  simp only [enroll]
  split
  · rename_i present
    constructor
    · exact Or.inr
    · rintro (rfl | member)
      · exact present
      · exact member
  · rw [List.mem_append, List.mem_singleton, or_comm]

/-- `owner` takes one item, from whoever holds it. -/
def take (t : Ownership κ ν) (owner : κ) (item : ν) : Ownership κ ν where
  owners := (t.enroll owner).owners
  items := (t.items.filter fun entry => entry.1 ≠ item) ++ [(item, owner)]
  distinct := (t.enroll owner).distinct
  single := by
    rw [List.map_append, List.nodup_append]
    refine ⟨t.single.sublist (List.filter_sublist.map _), List.nodup_singleton _, ?_⟩
    rintro a member b here rfl
    obtain ⟨entry, kept, rfl⟩ := List.mem_map.mp member
    have apart := (List.mem_filter.mp kept).2
    simp only [List.map_cons, List.map_nil, List.mem_singleton] at here
    simp [here] at apart
  owned entry member := by
    rcases List.mem_append.mp member with kept | new
    · exact mem_enroll.mpr (.inr (t.owned entry (List.mem_filter.mp kept).1))
    · obtain rfl := List.mem_singleton.mp new
      exact mem_enroll.mpr (.inl rfl)

/-- One change to one owner. -/
structure Change (κ ν : Type) where
  owner : κ
  remove : Bool
  updateOnly : Bool
  replace : Bool
  items : List ν

def apply (t : Ownership κ ν) (change : Change κ ν) : Ownership κ ν :=
  if change.remove then t.remove change.owner
  else if change.updateOnly && change.owner ∉ t.owners then t
  else
    let cleared := if change.replace then t.release change.owner else t
    change.items.foldl (·.take change.owner) (cleared.enroll change.owner)

section Lemmas
variable {t : Ownership κ ν} {owner other : κ} {change : Change κ ν}

omit [DecidableEq ν] in
@[simp] theorem held_release_self : (t.release owner).held owner = [] := by
  simp [held, release]

omit [DecidableEq ν] in
theorem held_release (apart : other ≠ owner) : (t.release owner).held other = t.held other := by
  simp only [held, release, List.filter_filter]
  congr 1
  apply List.filter_congr
  rintro ⟨item, holder⟩ -
  by_cases same : holder = other
  · simp [same, apart]
  · simp [same]

omit [DecidableEq ν] in
@[simp] theorem held_enroll : (t.enroll owner).held other = t.held other := rfl

@[simp] theorem mem_take : other ∈ (t.take owner item).owners ↔ other = owner ∨
    other ∈ t.owners := mem_enroll

theorem held_take_self (free : item ∉ t.held owner) :
    (t.take owner item).held owner = t.held owner ++ [item] := by
  simp only [held, take, List.filter_append, List.map_append, List.filter_filter]
  congr 1
  · congr 1
    apply List.filter_congr
    rintro ⟨i, holder⟩ member
    by_cases same : holder = owner
    · have ne : i ≠ item := by
        rintro rfl
        exact free (List.mem_map.mpr
          ⟨(i, holder), List.mem_filter.mpr ⟨member, by simp [same]⟩, rfl⟩)
      simp [same, ne]
    · simp [same]
  · simp

theorem held_take (apart : other ≠ owner) (free : item ∉ t.held other) :
    (t.take owner item).held other = t.held other := by
  have kept : (t.items.filter fun entry => entry.1 ≠ item).filter (fun entry => entry.2 = other) =
      t.items.filter fun entry => entry.2 = other := by
    rw [List.filter_filter]
    apply List.filter_congr
    rintro ⟨i, holder⟩ member
    by_cases same : holder = other
    · have ne : i ≠ item := by
        rintro rfl
        exact free (List.mem_map.mpr
          ⟨(i, holder), List.mem_filter.mpr ⟨member, by simp [same]⟩, rfl⟩)
      simp [same, ne]
    · simp [same]
  have new : [(item, owner)].filter (fun entry => decide (entry.2 = other)) = [] := by
    simp [Ne.symm apart]
  simp only [held, take, List.filter_append, kept, new, List.append_nil]

theorem mem_takeAll (items : List ν) :
    other ∈ (items.foldl (·.take owner) t).owners ↔ (items ≠ [] ∧ other = owner) ∨
      other ∈ t.owners := by
  induction items generalizing t with
  | nil => simp
  | cons item rest ih =>
    rw [List.foldl_cons, ih, mem_take]
    simp only [ne_eq, reduceCtorEq, not_false_eq_true, true_and]
    tauto

theorem held_takeAll_self (items : List ν) (once : items.Nodup)
    (free : ∀ item ∈ items, item ∉ t.held owner) :
    (items.foldl (·.take owner) t).held owner = t.held owner ++ items := by
  induction items generalizing t with
  | nil => simp
  | cons item rest ih =>
    obtain ⟨new, once⟩ := List.nodup_cons.mp once
    have first := held_take_self (free item List.mem_cons_self)
    rw [List.foldl_cons, ih once, first, List.append_assoc, List.singleton_append]
    intro later member
    rw [first, List.mem_append, List.mem_singleton, not_or]
    exact ⟨free later (List.mem_cons_of_mem _ member), by
      rintro rfl
      exact new member⟩

theorem held_takeAll (items : List ν) (apart : other ≠ owner)
    (free : ∀ item ∈ items, item ∉ t.held other) :
    (items.foldl (·.take owner) t).held other = t.held other := by
  induction items generalizing t with
  | nil => rfl
  | cons item rest ih =>
    have first := held_take apart (free item List.mem_cons_self)
    rw [List.foldl_cons, ih, first]
    intro later member
    rw [first]
    exact free later (List.mem_cons_of_mem _ member)

/-- The items a change takes. -/
def Change.takes (change : Change κ ν) : List ν := if change.remove then [] else change.items

theorem mem_apply (apart : other ≠ change.owner) :
    other ∈ (t.apply change).owners ↔ other ∈ t.owners := by
  unfold apply
  split
  · exact (t.distinct.mem_erase_iff).trans (and_iff_right apart)
  · split
    · rfl
    · dsimp only
      rw [mem_takeAll, mem_enroll]
      simp only [apart, and_false, false_or]
      split <;> rfl

theorem held_apply (apart : other ≠ change.owner)
    (free : ∀ item ∈ change.takes, item ∉ t.held other) :
    (t.apply change).held other = t.held other := by
  unfold apply Change.takes at *
  split
  · exact held_release apart
  · rename_i keeps
    rw [if_neg keeps] at free
    split
    · rfl
    · dsimp only
      have cleared : (if change.replace then t.release change.owner else t).held other =
          t.held other := by
        split
        · exact held_release apart
        · rfl
      rw [held_takeAll _ apart, held_enroll, cleared]
      intro item member
      rw [held_enroll, cleared]
      exact free item member

theorem apply_removes (removes : change.remove = true) :
    change.owner ∉ (t.apply change).owners := by
  rw [apply, if_pos removes]
  exact fun member => (t.distinct.mem_erase_iff.mp member).1 rfl

/-- A change that finds its owner, or may create it, and starts from no items. -/
structure Change.Lands (change : Change κ ν) (t : Ownership κ ν) : Prop where
  keeps : change.remove = false
  found : change.updateOnly = true → change.owner ∈ t.owners
  clears : change.replace = true ∨ t.held change.owner = []
  once : change.items.Nodup

theorem Change.Lands.spec (lands : change.Lands t) :
    change.owner ∈ (t.apply change).owners ∧ (t.apply change).held change.owner = change.items := by
  have proceeds : ¬ (change.updateOnly && decide (change.owner ∉ t.owners)) = true := by
    simpa using lands.found
  have empty : ((if change.replace then t.release change.owner else t).enroll change.owner).held
      change.owner = [] := by
    rw [held_enroll]
    split
    · exact held_release_self
    · rename_i keeps
      exact lands.clears.resolve_left keeps
  rw [apply, if_neg (by simp [lands.keeps]), if_neg proceeds]
  constructor
  · exact (mem_takeAll _).mpr (.inr (mem_enroll.mpr (.inl rfl)))
  · rw [held_takeAll_self _ lands.once (by simp [empty]), empty, List.nil_append]

end Lemmas

section Batch
variable {t : Ownership κ ν} {owner : κ} {change : Change κ ν} {changes : List (Change κ ν)}

def applyAll (t : Ownership κ ν) (changes : List (Change κ ν)) : Ownership κ ν :=
  changes.foldl apply t

/-- The changes are to different owners and take different items. -/
def Apart (changes : List (Change κ ν)) : Prop :=
  changes.Pairwise fun first second => first.owner ≠ second.owner ∧
    first.takes.Disjoint second.takes

omit [DecidableEq κ] [DecidableEq ν] in
theorem Apart.perm (apart : Apart changes) (same : changes.Perm others) : Apart others :=
  List.Pairwise.perm apart same fun both => ⟨both.1.symm, List.disjoint_symm both.2⟩

/-- An owner that no change is about keeps its place, and its items if none is taken. -/
theorem applyAll_spares (spared : ∀ change ∈ changes, owner ≠ change.owner) :
    (owner ∈ (t.applyAll changes).owners ↔ owner ∈ t.owners) ∧
      ((∀ change ∈ changes, ∀ item ∈ change.takes, item ∉ t.held owner) →
        (t.applyAll changes).held owner = t.held owner) := by
  induction changes generalizing t with
  | nil => exact ⟨Iff.rfl, fun _ => rfl⟩
  | cons change rest ih =>
    obtain ⟨stays, keeps⟩ := ih (t := t.apply change) fun later member =>
      spared later (List.mem_cons_of_mem _ member)
    have here := spared change List.mem_cons_self
    refine ⟨stays.trans (mem_apply here), fun free => ?_⟩
    have first := held_apply here (free change List.mem_cons_self)
    refine (keeps fun later member item taken => ?_).trans first
    rw [first]
    exact free later (List.mem_cons_of_mem _ member) item taken

/-- In a batch of changes apart from each other, each change has the effect it has alone. -/
theorem applyAll_change (apart : Apart changes) (member : change ∈ changes) :
    (change.remove = true → change.owner ∉ (t.applyAll changes).owners) ∧
      (change.Lands t → change.owner ∈ (t.applyAll changes).owners ∧
        (t.applyAll changes).held change.owner = change.items) := by
  induction changes generalizing t with
  | nil => contradiction
  | cons first rest ih =>
    obtain ⟨here, apart⟩ := List.pairwise_cons.mp apart
    rcases List.mem_cons.mp member with rfl | later
    · -- Nothing that follows is about this owner, or takes what it has just taken.
      have spared := applyAll_spares (t := t.apply change) fun next at_ => (here next at_).1
      constructor
      · intro removes still
        exact apply_removes removes (spared.1.mp still)
      · intro lands
        obtain ⟨present, holds⟩ := lands.spec
        refine ⟨spared.1.mpr present, (spared.2 fun next at_ item taken => ?_).trans holds⟩
        rw [holds]
        intro own
        have mine : item ∈ change.takes := by simpa [Change.takes, lands.keeps] using own
        exact (here next at_).2 mine taken
    · obtain ⟨removed, landed⟩ := ih (t := t.apply first) apart later
      refine ⟨removed, fun lands => landed ⟨lands.keeps, ?_, ?_, lands.once⟩⟩
      · intro update
        exact (mem_apply (here change later).1.symm).mpr (lands.found update)
      · refine lands.clears.imp id fun empty => ?_
        rw [held_apply (here change later).1.symm (by simp [empty]), empty]

end Batch

/-! Changes that were meant for another table. -/

section Stale
variable {t : Ownership κ ν} {owner other : κ} {change : Change κ ν} {changes : List (Change κ ν)}

theorem held_take_own : (t.take owner item).held owner = (t.held owner).filter (· ≠ item) ++
    [item] := by
  simp only [held, take, List.filter_append, List.map_append, List.filter_map, List.filter_filter]
  congr 1
  · congr 1
    apply List.filter_congr
    rintro ⟨i, holder⟩ -
    simp [Bool.and_comm]
  · simp

theorem held_takeAll_own (items : List ν) (once : items.Nodup) :
    (items.foldl (·.take owner) t).held owner = (t.held owner).filter (· ∉ items) ++ items := by
  induction items generalizing t with
  | nil => simp
  | cons item rest ih =>
    obtain ⟨new, once⟩ := List.nodup_cons.mp once
    have mine : [item].filter (· ∉ rest) = [item] := by simp [new]
    rw [List.foldl_cons, ih once, held_take_own, List.filter_append, mine, List.filter_filter,
      List.append_assoc, List.singleton_append]
    congr 1
    apply List.filter_congr
    intro i _
    simp [Bool.and_comm]

theorem mem_held_take (apart : other ≠ owner) (member : x ∈ (t.take owner item).held other) :
    x ∈ t.held other := by
  obtain ⟨entry, inside, rfl⟩ := List.mem_map.mp member
  obtain ⟨inside, holder⟩ := List.mem_filter.mp inside
  rcases List.mem_append.mp inside with kept | new
  · exact List.mem_map.mpr ⟨entry, List.mem_filter.mpr ⟨(List.mem_filter.mp kept).1, holder⟩, rfl⟩
  · rw [List.mem_singleton.mp new] at holder
    exact absurd (of_decide_eq_true holder).symm apart

/-- Nobody gets an item from a change to another. -/
theorem mem_held_apply (apart : other ≠ change.owner) (member : x ∈ (t.apply change).held other) :
    x ∈ t.held other := by
  have taken : ∀ (items : List ν) {u : Ownership κ ν},
      x ∈ (items.foldl (·.take change.owner) u).held other →
      x ∈ u.held other := by
    intro items
    induction items with
    | nil => exact id
    | cons item rest ih => exact fun later => mem_held_take apart (ih later)
  unfold apply at member
  split at member
  · rwa [show (t.remove change.owner).held other = _ from held_release apart] at member
  · split at member
    · exact member
    · have before := taken _ member
      rw [held_enroll] at before
      split at before
      · rwa [held_release apart] at before
      · exact before

/-- A change that must find its owner and does not changes nothing. -/
theorem apply_missing (keeps : change.remove = false)
    (missing : ¬ (change.updateOnly = true → change.owner ∈ t.owners)) :
    t.apply change = t := by
  obtain ⟨only, absent⟩ := Classical.not_imp.mp missing
  rw [apply, if_neg (by simp [keeps]), if_pos (by simp [only, absent])]

theorem mem_apply_own (keeps : change.remove = false)
    (found : change.updateOnly = true → change.owner ∈ t.owners) :
    change.owner ∈ (t.apply change).owners := by
  have proceeds : ¬ (change.updateOnly && decide (change.owner ∉ t.owners)) = true := by
    simpa using found
  rw [apply, if_neg (by simp [keeps]), if_neg proceeds]
  exact (mem_takeAll _).mpr (.inr (mem_enroll.mpr (.inl rfl)))

/-- A change that finds its owner, or may create it, and leaves it with its own items only. -/
structure Change.Settles (change : Change κ ν) (t : Ownership κ ν) : Prop where
  keeps : change.remove = false
  found : change.updateOnly = true → change.owner ∈ t.owners
  within : change.replace = true ∨ ∀ item ∈ t.held change.owner, item ∈ change.items
  once : change.items.Nodup

theorem Change.Settles.spec (settles : change.Settles t) :
    change.owner ∈ (t.apply change).owners ∧ (t.apply change).held change.owner = change.items := by
  refine ⟨mem_apply_own settles.keeps settles.found, ?_⟩
  have proceeds : ¬ (change.updateOnly && decide (change.owner ∉ t.owners)) = true := by
    simpa using settles.found
  rw [apply, if_neg (by simp [settles.keeps]), if_neg proceeds]
  have empty : ((if change.replace then t.release change.owner else t).held change.owner).filter
      (· ∉ change.items) = [] := by
    rw [List.filter_eq_nil_iff]
    intro item member
    split at member
    · simp at member
    · rename_i whole
      simpa using settles.within.resolve_left whole item member
  dsimp only
  rw [held_takeAll_own _ settles.once, held_enroll, empty, List.nil_append]

/-- In a batch of changes apart from each other, such a change has the effect it has alone. -/
theorem applyAll_settles (apart : Apart changes) (member : change ∈ changes)
    (settles : change.Settles t) :
    change.owner ∈ (t.applyAll changes).owners ∧ (t.applyAll changes).held change.owner =
      change.items := by
  induction changes generalizing t with
  | nil => contradiction
  | cons first rest ih =>
    obtain ⟨here, apart⟩ := List.pairwise_cons.mp apart
    rcases List.mem_cons.mp member with rfl | later
    · obtain ⟨present, holds⟩ := settles.spec
      have spared := applyAll_spares (t := t.apply change) fun next at_ => (here next at_).1
      refine ⟨spared.1.mpr present, (spared.2 fun next at_ item taken => ?_).trans holds⟩
      rw [holds]
      intro own
      have mine : item ∈ change.takes := by simpa [Change.takes, settles.keeps] using own
      exact (here next at_).2 mine taken
    · have other := (here change later).1.symm
      refine ih apart later ⟨settles.keeps,
        fun update => (mem_apply other).mpr (settles.found update), ?_, settles.once⟩
      exact settles.within.imp id fun inside item held => inside item (mem_held_apply other held)

end Stale
end Ownership
end TunnelOperator
