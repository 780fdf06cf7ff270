import Mathlib.Data.List.Lex
import TunnelOperator.Library.Pool
import TunnelOperator.Sidecar.Routing

/-! Which route planRoutes reads the gateway from, when the kernel lists the table in a
fixed order of destinations and metrics. -/
namespace TunnelOperator.Sidecar
open Netip Net Program

section Ranks
variable {ι : Type} [LinearOrder ι] {rank : Prefix × Nat → ι} {t : MainTable} {wgIndex : Nat}

/-- The kernel walks the table in the order of the routes' destinations and metrics. -/
def Ranked (rank : Prefix × Nat → ι) (t : MainTable) (listed : List Route) : Prop :=
  listed.Perm t.entries ∧ listed.Pairwise fun a b => rank (slot a) < rank (slot b)

theorem exists_ranked (injective : Function.Injective rank) (t : MainTable) :
    ∃ listed, Ranked rank t listed := by
  let le (a b : Route) : Bool := rank (slot a) ≤ rank (slot b)
  have sorted : (t.entries.mergeSort le).Pairwise fun a b => le a b = true := by
    refine List.pairwise_mergeSort ?_ ?_ _
    · simpa [le] using fun a b c => le_trans
    · simpa [le] using fun a b => le_total (rank (slot a)) (rank (slot b))
  have perm := t.entries.mergeSort_perm le
  refine ⟨_, perm, ?_⟩
  have apart : (t.entries.mergeSort le).Pairwise fun a b => slot a ≠ slot b :=
    List.pairwise_map.mp ((perm.map slot).nodup_iff.mpr t.distinct)
  refine apart.imp₂ (fun a b differ before => ?_) sorted
  exact lt_of_le_of_ne (of_decide_eq_true before) fun same => differ (injective same)

/-- A route planRoutes may read the gateway from. -/
def candidate (wgIndex : Nat) (r : Route) : Bool := cniDefault wgIndex r || ownGateway r

/-- planRoutes prefers default routes off wg0, and among equals the first one listed. -/
def preference (rank : Prefix × Nat → ι) (wgIndex : Nat) (r : Route) : Bool ×ₗ ι :=
  toLex (!cniDefault wgIndex r, rank (slot r))

structure Chosen (rank : Prefix × Nat → ι) (wgIndex : Nat) (t : MainTable) (r : Route) : Prop where
  member : r ∈ t.entries
  eligible : candidate wgIndex r = true
  least : ∀ other ∈ t.entries, candidate wgIndex other = true →
    preference rank wgIndex r ≤ preference rank wgIndex other

theorem chosen_of_gatewayRoute (order : Ranked rank t listed)
    (found : gatewayRoute listed wgIndex = some r) :
    Chosen rank wgIndex t r := by
  obtain ⟨member, kind⟩ := gatewayRoute_some found
  refine ⟨order.1.mem_iff.mp member, ?_, fun other here eligible => ?_⟩
  · rcases kind with isDef | ⟨own, -⟩
    · simp [candidate, isDef]
    · simp [candidate, own]
  · have listed' := order.1.mem_iff.mpr here
    have first : ∀ {p : Route → Bool}, listed.find? p = some r → p other = true →
        rank (slot r) ≤ rank (slot other) := by
      intro p search holds
      rcases Pool.find?_first order.2 search listed' holds with rfl | before
      · exact le_refl _
      · exact le_of_lt before
    rw [preference, preference, Prod.Lex.toLex_le_toLex]
    rcases Option.or_eq_some_iff.mp found with search | ⟨missing, search⟩
    · have isDef := List.find?_some search
      cases defaultOther : cniDefault wgIndex other with
      | true => exact .inr ⟨by simp [isDef], first search defaultOther⟩
      | false => exact .inl (by simp [isDef])
    · have none := List.find?_eq_none.mp missing
      have notDef : cniDefault wgIndex r = false := by simpa using none r member
      have notOther : cniDefault wgIndex other = false := by simpa using none other listed'
      refine .inr ⟨by simp [notDef, notOther], first search ?_⟩
      simpa [candidate, notOther] using eligible

omit [LinearOrder ι] in
theorem preference_injective (injective : Function.Injective rank) (first : a ∈ t.entries)
    (second : b ∈ t.entries)
    (same : preference rank wgIndex a = preference rank wgIndex b) : a = b :=
  t.eq_of_slot first second (injective (congrArg (fun key => (ofLex key).2) same))

theorem Chosen.unique (injective : Function.Injective rank) (one : Chosen rank wgIndex t a)
    (two : Chosen rank wgIndex t b) : a = b :=
  preference_injective injective one.member two.member
    (le_antisymm (one.least b two.member two.eligible) (two.least a one.member one.eligible))

theorem gatewayRoute_found (order : Ranked rank t listed) (member : r ∈ t.entries)
    (eligible : candidate wgIndex r = true) :
    ∃ chosen, gatewayRoute listed wgIndex = some chosen := by
  cases found : gatewayRoute listed wgIndex with
  | some chosen => exact ⟨chosen, rfl⟩
  | none =>
    obtain ⟨noDefault, noOwn⟩ := Option.or_eq_none_iff.mp found
    have listed' := order.1.mem_iff.mpr member
    have notDefault := List.find?_eq_none.mp noDefault r listed'
    have notOwn := List.find?_eq_none.mp noOwn r listed'
    simp only [candidate, Bool.or_eq_true] at eligible
    rcases eligible with isDef | own
    · exact absurd isDef notDefault
    · exact absurd own notOwn

theorem exists_chosen (injective : Function.Injective rank) (member : r ∈ t.entries)
    (eligible : candidate wgIndex r = true) : ∃ chosen, Chosen rank wgIndex t chosen := by
  obtain ⟨listed, order⟩ := exists_ranked injective t
  obtain ⟨chosen, found⟩ := gatewayRoute_found order member eligible
  exact ⟨chosen, chosen_of_gatewayRoute order found⟩

end Ranks
end TunnelOperator.Sidecar
