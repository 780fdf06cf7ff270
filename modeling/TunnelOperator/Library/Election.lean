import Mathlib.Data.List.Basic
import Mathlib.Data.List.Nodup
import Mathlib.Data.List.Pairwise
import Mathlib.Data.List.Induction
import Mathlib.Logic.Function.Basic

/-! One holder per value. A list is scanned once, keeping for each value the best
entry met so far, and then split into the entries that hold their value and those
that lose it. The result does not depend on the order of the list as soon as the
comparison ranks any two of its entries. -/
namespace TunnelOperator.Election
variable {α κ : Type}

/-- Entries are told apart by their position, as pointers into the list would be. -/
abbrev Holders (α κ : Type) := κ → Option (α × Nat)

def record [DecidableEq κ] (value : α → Option κ) (beats : α → α → Bool) (found : Holders α κ)
    (entry : α × Nat) : Holders α κ :=
  match value entry.1 with
  | none => found
  | some k =>
    match found k with
    | none => Function.update found k (some entry)
    | some best => if beats entry.1 best.1 then Function.update found k (some entry) else found

def holders [DecidableEq κ] (value : α → Option κ) (beats : α → α → Bool) (items : List α) :
    Holders α κ :=
  items.zipIdx.foldl (record value beats) fun _ => none

/-- The holder an entry loses its value to, if it does. -/
def rival [DecidableEq κ] (value : α → Option κ) (beats : α → α → Bool) (items : List α)
    (entry : α × Nat) : Option α :=
  match value entry.1 with
  | none => none
  | some k =>
    match holders value beats items k with
    | none => none
    | some best => if best.2 = entry.2 then none else some best.1

def keep [DecidableEq κ] (value : α → Option κ) (beats : α → α → Bool) (items : List α) : List α :=
  (items.zipIdx.filter fun entry => (rival value beats items entry).isNone).map (·.1)

def losers [DecidableEq κ] (value : α → Option κ) (beats : α → α → Bool) (items : List α) :
    List (α × α) :=
  items.zipIdx.filterMap fun entry => (rival value beats items entry).map (entry.1, ·)

/-- Any two entries at different positions are ranked one way. -/
structure Ranks (beats : α → α → Bool) (items : List α) : Prop where
  irrefl : ∀ a, beats a a = false
  trans : ∀ {a b c}, beats a b = true → beats b c = true → beats a c = true
  total : items.Pairwise fun a b => beats a b = true ∨ beats b a = true

/-- `best` comes before every other entry with its value. -/
def Best (value : α → Option κ) (beats : α → α → Bool) (items : List α) (best : α) : Prop :=
  best ∈ items ∧ ∀ other ∈ items, value other = value best → other = best ∨ beats best other = true

section
variable {value : α → Option κ} {beats : α → α → Bool} {items : List α}

theorem Ranks.nodup (ranks : Ranks beats items) : items.Nodup := by
  refine ranks.total.imp ?_
  rintro a b ranked rfl
  rcases ranked with h | h <;> simp [ranks.irrefl a] at h

theorem Ranks.asymm (ranks : Ranks beats items) (h : beats a b = true) : beats b a = false := by
  by_contra other
  have loop := ranks.trans h (by simpa using other)
  simp [ranks.irrefl a] at loop

theorem Ranks.compare (ranks : Ranks beats items) (ha : a ∈ items) (hb : b ∈ items) (ne : a ≠ b) :
    beats a b = true ∨ beats b a = true := by
  have : Std.Symm fun a b => beats a b = true ∨ beats b a = true := ⟨fun _ _ h => h.symm⟩
  exact ranks.total.forall ha hb ne

theorem Ranks.init (ranks : Ranks beats (items ++ [last])) : Ranks beats items :=
  ⟨ranks.irrefl, ranks.trans, (List.pairwise_append.mp ranks.total).1⟩

theorem Ranks.perm (ranks : Ranks beats items) (same : items.Perm other) : Ranks beats other :=
  ⟨ranks.irrefl, ranks.trans, (same.pairwise_iff fun h => h.symm).mp ranks.total⟩

/-- What the scan has established after `items`. -/
structure Scanned (value : α → Option κ) (beats : α → α → Bool) (items : List α)
    (found : Holders α κ) : Prop where
  absent : found k = none → ∀ a ∈ items, value a ≠ some k
  present : found k = some (best, i) → items[i]? = some best ∧ value best = some k ∧
    ∀ j other, items[j]? = some other → value other = some k → j = i ∨ beats best other = true

/-- An entry of the longer list is an old one at its old place or the new last one. -/
theorem getElem?_concat_cases {j : Nat} (here : (items ++ [last])[j]? = some other) :
    items[j]? = some other ∨ (j = items.length ∧ other = last) := by
  rcases Nat.lt_trichotomy j items.length with h | rfl | h
  · exact .inl (by simpa [List.getElem?_append_left h] using here)
  · exact .inr ⟨rfl, by simpa using here.symm⟩
  · rw [List.getElem?_eq_none (by simp; omega)] at here
    contradiction

theorem getElem?_concat_left {j : Nat} (here : items[j]? = some other) :
    (items ++ [last])[j]? = some other := by
  rw [List.getElem?_append_left (List.getElem?_eq_some_iff.mp here).1, here]

theorem Scanned.absent_concat {found : Holders α κ} (scanned : Scanned value beats items found)
    (free : value last ≠ some k) (none : found k = none) :
    ∀ a ∈ items ++ [last], value a ≠ some k := by
  intro a member
  rcases List.mem_append.mp member with old | new
  · exact scanned.absent none a old
  · obtain rfl := List.mem_singleton.mp new
    exact free

/-- A holder survives a new entry that has another value or that it beats. -/
theorem Scanned.present_concat {found : Holders α κ} (scanned : Scanned value beats items found)
    (kept : value last = some k → beats best last = true) (at_ : found k = some (best, i)) :
    (items ++ [last])[i]? = some best ∧ value best = some k ∧
      ∀ j other, (items ++ [last])[j]? = some other → value other = some k →
        j = i ∨ beats best other = true := by
  obtain ⟨here, holds, most⟩ := scanned.present at_
  refine ⟨getElem?_concat_left here, holds, ?_⟩
  intro j other there same
  rcases getElem?_concat_cases there with old | ⟨-, rfl⟩
  · exact most j other old same
  · exact .inr (kept same)

variable [DecidableEq κ]

theorem keep_singleton (value : α → Option κ) (beats : α → α → Bool) (a : α) :
    keep value beats [a] = [a] := by
  have unrivalled : rival value beats [a] (a, 0) = none := by
    cases valued : value a with
    | none => simp [rival, valued]
    | some k => simp [rival, holders, record, valued]
  simp [keep, unrivalled]

/-- A new entry that beats every old entry with its value becomes the holder. -/
theorem Scanned.update {found : Holders α κ} (scanned : Scanned value beats items found)
    (valued : value last = some k)
    (most : ∀ (j : Nat) other, items[j]? = some other → value other = some k →
      beats last other = true) :
    Scanned value beats (items ++ [last])
      (Function.update found k (some (last, items.length))) := by
  constructor
  · intro k' none
    by_cases same : k' = k
    · subst same
      simp at none
    · rw [Function.update_of_ne same] at none
      exact scanned.absent_concat (by simpa [valued] using Ne.symm same) none
  · intro k' best i at_
    by_cases same : k' = k
    · subst same
      simp only [Function.update_self, Option.some.injEq, Prod.mk.injEq] at at_
      obtain ⟨rfl, rfl⟩ := at_
      refine ⟨by simp, valued, fun j other there same => ?_⟩
      rcases getElem?_concat_cases there with old | ⟨rfl, -⟩
      · exact .inr (most j other old same)
      · exact .inl rfl
    · rw [Function.update_of_ne same] at at_
      exact scanned.present_concat
        (fun h => absurd (valued.symm.trans h) (by simpa using Ne.symm same)) at_

/-- One step of the scan. -/
theorem scanned_record (ranks : Ranks beats (items ++ [last])) {found : Holders α κ}
    (scanned : Scanned value beats items found) :
    Scanned value beats (items ++ [last]) (record value beats found (last, items.length)) := by
  unfold record
  cases valued : value last with
  | none =>
    exact ⟨scanned.absent_concat (by simp [valued]),
      scanned.present_concat fun h => absurd (valued.symm.trans h) (by simp)⟩
  | some k =>
    dsimp only
    cases before : found k with
    | none =>
      refine scanned.update valued fun j other there same => ?_
      exact absurd same (scanned.absent before other (List.mem_of_getElem? there))
    | some entry =>
      obtain ⟨best, i⟩ := entry
      obtain ⟨here, holds, most⟩ := scanned.present before
      have member : best ∈ items := List.mem_of_getElem? here
      dsimp only
      split
      · rename_i wins
        refine scanned.update valued fun j other there same => ?_
        rcases most j other there same with rfl | beaten
        · rw [here] at there
          exact Option.some.inj there ▸ wins
        · exact ranks.trans wins beaten
      · rename_i loses
        have ne : best ≠ last := by
          rintro rfl
          exact (List.disjoint_of_nodup_append ranks.nodup) member (by simp)
        have beaten : beats best last = true :=
          (ranks.compare (by simp [member]) (by simp) ne).resolve_right loses
        constructor
        · intro k' none
          by_cases same : k' = k
          · subst same
            rw [before] at none
            contradiction
          · exact scanned.absent_concat (by simpa [valued] using Ne.symm same) none
        · intro k' best' i' at_
          by_cases same : k' = k
          · subst same
            rw [before] at at_
            cases at_
            exact scanned.present_concat (fun _ => beaten) before
          · exact scanned.present_concat
              (fun h => absurd (valued.symm.trans h) (by simpa using Ne.symm same)) at_

theorem scanned_holders (ranks : Ranks beats items) :
    Scanned value beats items (holders value beats items) := by
  induction items using List.reverseRec with
  | nil => exact ⟨fun _ a member => absurd member (by simp),
    fun at_ => absurd at_ (by simp [holders])⟩
  | append_singleton items last ih =>
    have step := scanned_record ranks (ih ranks.init)
    simpa only [holders, List.zipIdx_append, List.foldl_append, List.zipIdx_singleton,
      List.foldl_cons, List.foldl_nil, Nat.zero_add] using step

/-- The recorded holder of a value is the best of its entries. -/
theorem best_of_holder (ranks : Ranks beats items)
    (at_ : holders value beats items k = some (best, i)) :
    Best value beats items best ∧ value best = some k ∧ items[i]? = some best := by
  obtain ⟨here, holds, most⟩ := (scanned_holders ranks).present at_
  refine ⟨⟨List.mem_of_getElem? here, ?_⟩, holds, here⟩
  intro other member same
  obtain ⟨j, there⟩ := List.mem_iff_getElem?.mp member
  rcases most j other there (same.trans holds) with rfl | beaten
  · exact .inl (Option.some.inj (there.symm.trans here))
  · exact .inr beaten

omit [DecidableEq κ] in
theorem Best.unique (ranks : Ranks beats items) (first : Best value beats items a)
    (second : Best value beats items b) (same : value a = value b) : a = b := by
  rcases first.2 b second.1 same.symm with rfl | ab
  · rfl
  rcases second.2 a first.1 same with rfl | ba
  · rfl
  rw [ranks.asymm ab] at ba
  contradiction

theorem exists_best (ranks : Ranks beats items) (member : a ∈ items) (held : value a = some k) :
    ∃ best, Best value beats items best ∧ value best = some k := by
  cases at_ : holders value beats items k with
  | none => exact absurd held ((scanned_holders ranks).absent at_ a member)
  | some entry => exact ⟨entry.1, (best_of_holder ranks at_).1, (best_of_holder ranks at_).2.1⟩

theorem rival_eq_some_iff (ranks : Ranks beats items) (here : items[i]? = some a) :
    rival value beats items (a, i) = some winner ↔
      value a ≠ none ∧ value winner = value a ∧ winner ≠ a ∧ Best value beats items winner := by
  have member : a ∈ items := List.mem_of_getElem? here
  unfold rival
  cases held : value a with
  | none => simp
  | some k =>
    dsimp only
    cases at_ : holders value beats items k with
    | none => exact absurd held ((scanned_holders ranks).absent at_ a member)
    | some entry =>
      obtain ⟨best, j⟩ := entry
      obtain ⟨isBest, holds, there⟩ := best_of_holder ranks at_
      dsimp only
      split
      · rename_i same
        subst same
        have self : best = a := Option.some.inj (there.symm.trans here)
        subst self
        simp only [reduceCtorEq, ne_eq, not_false_eq_true, true_and, false_iff, not_and]
        intro held' ne winning
        exact ne (winning.unique ranks isBest (held'.trans holds.symm))
      · rename_i apart
        have ne : best ≠ a := by
          rintro rfl
          have places := (List.nodup_iff_getElem?_ne_getElem?.mp ranks.nodup)
          rcases Nat.lt_or_gt_of_ne apart with lt | gt
          · exact places j i lt (List.getElem?_eq_some_iff.mp here).1 (there.trans here.symm)
          · exact places i j gt (List.getElem?_eq_some_iff.mp there).1 (here.trans there.symm)
        simp only [Option.some.injEq, ne_eq, reduceCtorEq, not_false_eq_true, true_and]
        constructor
        · rintro rfl
          exact ⟨holds, ne, isBest⟩
        · rintro ⟨held', -, winning⟩
          exact isBest.unique ranks winning (holds.trans held'.symm)

theorem rival_eq_none_iff (ranks : Ranks beats items) (here : items[i]? = some a) :
    rival value beats items (a, i) = none ↔ value a = none ∨ Best value beats items a := by
  have member : a ∈ items := List.mem_of_getElem? here
  constructor
  · intro none
    cases held : value a with
    | none => exact .inl rfl
    | some k =>
      obtain ⟨best, isBest, holds⟩ := exists_best ranks member held
      by_cases same : best = a
      · exact .inr (same ▸ isBest)
      · have lost : rival value beats items (a, i) = some best := (rival_eq_some_iff ranks here).mpr
          ⟨by simp [held], holds.trans held.symm, same, isBest⟩
        rw [none] at lost
        contradiction
  · intro kept
    cases lost : rival value beats items (a, i) with
    | none => rfl
    | some winner =>
      obtain ⟨some_, same, ne, winning⟩ := (rival_eq_some_iff ranks here).mp lost
      rcases kept with none | isBest
      · exact absurd none some_
      · exact absurd (winning.unique ranks isBest same) ne

theorem mem_keep (ranks : Ranks beats items) :
    a ∈ keep value beats items ↔ a ∈ items ∧ (value a = none ∨ Best value beats items a) := by
  simp only [keep, List.mem_map, List.mem_filter, Option.isNone_iff_eq_none]
  constructor
  · rintro ⟨⟨a, i⟩, ⟨entry, kept⟩, rfl⟩
    have here := List.mk_mem_zipIdx_iff_getElem?.mp entry
    exact ⟨List.mem_of_getElem? here, (rival_eq_none_iff ranks here).mp kept⟩
  · rintro ⟨member, kept⟩
    obtain ⟨i, here⟩ := List.mem_iff_getElem?.mp member
    exact ⟨(a, i), ⟨List.mk_mem_zipIdx_iff_getElem?.mpr here,
      (rival_eq_none_iff ranks here).mpr kept⟩, rfl⟩

theorem mem_losers (ranks : Ranks beats items) :
    (a, winner) ∈ losers value beats items ↔ a ∈ items ∧ value a ≠ none ∧
      value winner = value a ∧ winner ≠ a ∧ Best value beats items winner := by
  simp only [losers, List.mem_filterMap, Option.map_eq_some_iff, Prod.mk.injEq]
  constructor
  · rintro ⟨⟨b, i⟩, entry, w, lost, rfl, rfl⟩
    have here := List.mk_mem_zipIdx_iff_getElem?.mp entry
    exact ⟨List.mem_of_getElem? here, (rival_eq_some_iff ranks here).mp lost⟩
  · rintro ⟨member, lost⟩
    obtain ⟨i, here⟩ := List.mem_iff_getElem?.mp member
    exact ⟨(a, i), List.mk_mem_zipIdx_iff_getElem?.mpr here, winner,
      (rival_eq_some_iff ranks here).mpr lost, rfl, rfl⟩

theorem keep_sublist (items : List α) : (keep value beats items).Sublist items := by
  have whole : items.zipIdx.map (·.1) = items := by simp
  unfold keep
  conv_rhs => rw [← whole]
  exact List.filter_sublist.map _

/-- Every entry is kept or loses, and no entry does both. -/
theorem keep_append_losers (value : α → Option κ) (beats : α → α → Bool) (items : List α) :
    (keep value beats items ++ (losers value beats items).map (·.1)).Perm items := by
  have losing : (losers value beats items).map (·.1) =
      (items.zipIdx.filter fun entry => !(rival value beats items entry).isNone).map (·.1) := by
    unfold losers
    induction items.zipIdx with
    | nil => rfl
    | cons entry rest ih =>
      cases lost : rival value beats items entry with
      | none => simpa [lost] using ih
      | some winner => simpa [lost] using ih
  rw [losing, keep, ← List.map_append]
  conv_rhs => rw [← show items.zipIdx.map (·.1) = items by simp]
  exact (List.filter_append_perm _ _).map _

end
end TunnelOperator.Election
