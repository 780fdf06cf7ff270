import Mathlib.Data.List.Basic
import Mathlib.Data.List.Chain
import Mathlib.Order.Basic

/-! A stored value with all its versions, and a cache of it that lags but never goes
back. -/
namespace TunnelOperator

structure Register (α : Type) where
  /-- Oldest first. -/
  versions : List α
  seen : Nat
  bound : seen < versions.length

namespace Register
variable {α : Type} {r r' : Register α} {value : α}

theorem nonempty (r : Register α) : r.versions ≠ [] :=
  List.ne_nil_of_length_pos (Nat.zero_lt_of_lt r.bound)

def current (r : Register α) : α := r.versions.getLast r.nonempty

theorem current_mem (r : Register α) : r.current ∈ r.versions := List.getLast_mem _

def single (value : α) : Register α := ⟨[value], 0, Nat.zero_lt_one⟩

def write (r : Register α) (value : α) : Register α where
  versions := r.versions ++ [value]
  seen := r.seen
  bound := by
    rw [List.length_append]
    exact Nat.lt_add_right _ r.bound

theorem mem_write {r : Register α} : a ∈ (r.write value).versions ↔ a ∈ r.versions ∨ a = value := by
  simp [write]

@[simp] theorem current_write : (r.write value).current = value := by
  simp [current, write]

/-- A read through the cache: the version seen last or a later one. -/
inductive Reads (r : Register α) : α → Register α → Prop where
  | version (later : r.seen ≤ n) (bound : n < r.versions.length) :
    Reads r (r.versions.get ⟨n, bound⟩) ⟨r.versions, n, bound⟩

theorem Reads.versions (reads : Reads r value r') : r'.versions = r.versions := by
  cases reads
  rfl

theorem Reads.mem (reads : Reads r value r') : value ∈ r.versions := by
  cases reads
  exact List.get_mem ..

/-- The version the cache showed last. -/
def lastRead (r : Register α) : α := r.versions.get ⟨r.seen, r.bound⟩

theorem Reads.lastRead (reads : Reads r value r') : r'.lastRead = value := by
  cases reads
  rfl

theorem Reads.current (reads : Reads r value r') : r'.current = r.current := by
  cases reads
  rfl

theorem lastRead_write : (r.write value).lastRead = r.lastRead :=
  List.getElem_append_left r.bound

theorem lastRead_newest (newest : r.seen + 1 = r.versions.length) : r.lastRead = r.current := by
  rw [current, List.getLast_eq_getElem, lastRead, List.get_eq_getElem]
  simp only [← newest, Nat.add_sub_cancel]

/-- A write that changes nothing makes no new version. -/
inductive Stores (r : Register α) (value : α) : Register α → Prop where
  | same (same : r.current = value) : Stores r value r
  | changed (differs : r.current ≠ value) : Stores r value (r.write value)

theorem Stores.current (stores : Stores r value r') : r'.current = value := by
  cases stores with
  | same same => exact same
  | changed => exact current_write

theorem Stores.mem (stores : Stores r value r') (member : a ∈ r'.versions) :
    a ∈ r.versions ∨ a = value := by
  cases stores with
  | same => exact .inl member
  | changed => exact mem_write.mp member

theorem Stores.extends (stores : Stores r value r') : r.versions <+: r'.versions := by
  cases stores with
  | same => exact List.prefix_rfl
  | changed => exact List.prefix_append _ _

theorem Stores.unchanged (stores : Stores r value r') (same : r.current = value) : r' = r := by
  cases stores with
  | same => rfl
  | changed differs => exact absurd same differs

theorem Reads.seen (reads : Reads r value r') : r'.versions[r'.seen]? = some value := by
  cases reads with
  | version later bound => exact List.getElem?_eq_getElem bound

/-- The version with the last number is the current one. -/
theorem current_of_last (found : r.versions[n]? = some value) (last : n + 1 = r.versions.length) :
    r.current = value := by
  rw [current, List.getLast_eq_getElem]
  simpa [← last] using List.getElem_eq_iff _ |>.mpr found

/-- A cache that has caught up shows the current version. -/
theorem Reads.newest (reads : Reads r value r') (newest : r.seen + 1 = r.versions.length) :
    r.current = value := by
  cases reads with
  | version later bound => exact current_of_last (List.getElem?_eq_getElem bound) (by omega)

section Grows
variable {β : Type} [Preorder β] {f : α → β}

/-- No version is smaller under `f` than an older one. -/
def Grows (f : α → β) (r : Register α) : Prop := r.versions.Pairwise fun a b => f a ≤ f b

theorem grows_single (f : α → β) (value : α) : (single value).Grows f := List.pairwise_singleton _ _

theorem Grows.get (grows : r.Grows f) (order : i ≤ j) (bound : j < r.versions.length) :
    f (r.versions.get ⟨i, Nat.lt_of_le_of_lt order bound⟩) ≤ f (r.versions.get ⟨j, bound⟩) := by
  rcases Nat.lt_or_eq_of_le order with before | rfl
  · exact List.pairwise_iff_getElem.mp grows _ _ _ _ before
  · exact le_rfl

theorem Grows.le_current (grows : r.Grows f) (member : a ∈ r.versions) : f a ≤ f r.current := by
  obtain ⟨⟨i, bound⟩, rfl⟩ := List.get_of_mem member
  have last : r.current = r.versions.get ⟨r.versions.length - 1, Nat.sub_one_lt_of_lt bound⟩ := by
    rw [current, List.getLast_eq_getElem]
    rfl
  rw [last]
  exact grows.get (Nat.le_sub_one_of_lt bound) _

theorem Grows.write (grows : r.Grows f) (next : f r.current ≤ f value) :
    (r.write value).Grows f := by
  refine List.pairwise_append.mpr ⟨grows, List.pairwise_singleton _ _, fun a member b last => ?_⟩
  obtain rfl := List.mem_singleton.mp last
  exact le_trans (grows.le_current member) next

theorem Grows.stores (grows : r.Grows f) (stores : Stores r value r')
    (next : f r.current ≤ f value) : r'.Grows f := by
  cases stores with
  | same => exact grows
  | changed => exact grows.write next

theorem Grows.reads (grows : r.Grows f) (reads : Reads r value r') : r'.Grows f := by
  unfold Grows
  rw [reads.versions]
  exact grows

theorem Grows.lastRead_le (grows : r.Grows f) (reads : Reads r value r') :
    f r.lastRead ≤ f value := by
  cases reads with
  | version later bound => exact grows.get later bound

end Grows

end Register
end TunnelOperator
