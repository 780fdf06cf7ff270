import TunnelOperator.Sidecar.Choice

/-! An interrupted pass: on which tables the next pass finds the same gateway, wherever
the previous one stopped. -/
namespace TunnelOperator.Sidecar
open Netip Net Program

section Keeps
variable {ι : Type} [LinearOrder ι] {rank : Prefix × Nat → ι} {t : MainTable} {wgIndex : Nat}
  {plan : RoutePlan} {localCIDRs : List Prefix}

/-- The route goes where the plan's local routes go. -/
def Carries (plan : RoutePlan) (r : Route) : Prop := r.gw = plan.gw ∧ r.linkIndex = plan.gwLink

instance : Decidable (Carries plan r) := inferInstanceAs (Decidable (_ ∧ _))

/-- The table's next plan has the gateway of `plan`. -/
def Keeps (rank : Prefix × Nat → ι) (wgIndex : Nat) (plan : RoutePlan) (t : MainTable) : Prop :=
  ∃ r, Chosen rank wgIndex t r ∧ Carries plan r

theorem keeps_iff_planRoutes (injective : Function.Injective rank) (order : Ranked rank t listed) :
    Keeps rank wgIndex plan t ↔ ∃ next, planRoutes listed wgIndex localCIDRs = .ok next ∧
      next.gw = plan.gw ∧ next.gwLink = plan.gwLink := by
  constructor
  · rintro ⟨r, chosen, carries⟩
    obtain ⟨source, found⟩ := gatewayRoute_found order chosen.member chosen.eligible
    obtain rfl := chosen.unique injective (chosen_of_gatewayRoute order found)
    exact ⟨_, planRoutes_ok.mpr ⟨r, found, rfl⟩, carries⟩
  · rintro ⟨next, planned, carries⟩
    obtain ⟨r, found, rfl⟩ := planRoutes_ok.mp planned
    exact ⟨r, chosen_of_gatewayRoute order found, carries⟩

/-- Replacing a route by one via the plan's gateway keeps the choice. -/
theorem keeps_replace (gateway : plan.gw.isSome = true) (keeps : Keeps rank wgIndex plan t)
    (p : Prefix) :
    Keeps rank wgIndex plan (t.replace (toRoute (localRoute plan p))) := by
  obtain ⟨r, chosen, carries⟩ := keeps
  let new := toRoute (localRoute plan p)
  have own : candidate wgIndex new = true := by
    simp [new, candidate, ownGateway, toRoute, localRoute, gateway]
  by_cases earlier : preference rank wgIndex new ≤ preference rank wgIndex r
  · refine ⟨new, ⟨SlotTable.mem_replace.mpr (.inr rfl), own, fun other member eligible => ?_⟩, rfl, rfl⟩
    rcases SlotTable.mem_replace.mp member with ⟨old, -⟩ | rfl
    · exact earlier.trans (chosen.least other old eligible)
    · exact le_refl _
  · -- At the slot of the chosen route the new one would be preferred no less.
    have apart : slot r ≠ slot new := by
      intro same
      have dst : p = r.dst := (congrArg Prod.fst same).symm
      have default : cniDefault wgIndex r = true → cniDefault wgIndex new = true := by
        simp [new, cniDefault, isDefault, toRoute, localRoute, gateway, ← carries.2, dst]
        exact fun zero off _ => ⟨zero, off⟩
      refine earlier (Prod.Lex.toLex_le_toLex.mpr ?_)
      cases isDef : cniDefault wgIndex r with
      | true => exact .inr ⟨by simp [default isDef], (congrArg rank same).ge⟩
      | false =>
        cases newDef : cniDefault wgIndex new with
        | true => exact .inl (by simp)
        | false => exact .inr ⟨rfl, (congrArg rank same).ge⟩
    refine ⟨r, ⟨SlotTable.mem_replace.mpr (.inl ⟨chosen.member, apart⟩), chosen.eligible, ?_⟩,
      carries⟩
    intro other member eligible
    rcases SlotTable.mem_replace.mp member with ⟨old, -⟩ | rfl
    · exact chosen.least other old eligible
    · exact le_of_lt (lt_of_not_ge earlier)

theorem keeps_replaceLocal (gateway : plan.gw.isSome = true) (keeps : Keeps rank wgIndex plan t)
    (ps : List Prefix) :
    Keeps rank wgIndex plan ((ps.map fun p => toRoute (localRoute plan p)).foldl
      SlotTable.replace t) := by
  induction ps generalizing t with
  | nil => exact keeps
  | cons p rest ih => exact ih (keeps_replace gateway keeps p)

/-- The table once the plan's routes are in place and nothing is deleted yet. -/
def RoutePlan.replaced (plan : RoutePlan) (wgIndex : Nat) (t : MainTable) : MainTable :=
  (plan.installed wgIndex).foldl SlotTable.replace t

/-- Where a pass can stop: among the replaces of localCIDRs, or among the deletes. -/
theorem stop_cases (plan : RoutePlan) (wgIndex k : Nat) (t : MainTable) :
    (∃ ps : List Prefix, runAll t ((plan.operations wgIndex).take k) =
      (ps.map fun p => toRoute (localRoute plan p)).foldl SlotTable.replace t) ∨
    ∃ j, runAll t ((plan.operations wgIndex).take k) =
      (plan.stale.take j).foldl SlotTable.delete (plan.replaced wgIndex t) := by
  have length : (plan.installed wgIndex).length = plan.localCIDRs.length + 1 := by
    simp [RoutePlan.installed]
  rw [operations_eq, List.take_append, runAll, List.foldl_append, ← List.map_take, ← List.map_take,
    List.foldl_map, List.foldl_map, List.length_map]
  by_cases early : k ≤ plan.localCIDRs.length
  · refine .inl ⟨plan.localCIDRs.take k, ?_⟩
    rw [show k - (plan.installed wgIndex).length = 0 by omega, List.take_zero, RoutePlan.installed,
      List.take_append_of_le_length (by simpa using early), List.map_take]
    rfl
  · refine .inr ⟨k - (plan.installed wgIndex).length, ?_⟩
    rw [List.take_of_length_le (show (plan.installed wgIndex).length ≤ k by omega)]
    rfl

theorem stop_deleting (plan : RoutePlan) (wgIndex j : Nat) (t : MainTable) :
    ∃ k, runAll t ((plan.operations wgIndex).take k) =
      (plan.stale.take j).foldl SlotTable.delete (plan.replaced wgIndex t) := by
  refine ⟨(plan.installed wgIndex).length + j, ?_⟩
  rw [operations_eq, List.take_append, runAll, List.foldl_append, ← List.map_take, ← List.map_take,
    List.foldl_map,
    List.foldl_map, List.length_map, List.take_of_length_le (Nat.le_add_right ..),
      Nat.add_sub_cancel_left]
  rfl

/-- Some route the gateway can be read from is never deleted, and each one that goes
elsewhere is always behind another that lasts at least as long: one that is never
deleted or, as the deletes go in listing order, one that is deleted after it. -/
structure Steady (rank : Prefix × Nat → ι) (wgIndex : Nat) (plan : RoutePlan) (t : MainTable) :
    Prop where
  anchored : ∃ r ∈ (plan.replaced wgIndex t).entries, candidate wgIndex r = true ∧ r ∉ plan.stale
  shadowed : ∀ r ∈ (plan.replaced wgIndex t).entries, candidate wgIndex r = true →
    ¬ Carries plan r →
    ∃ other ∈ (plan.replaced wgIndex t).entries, candidate wgIndex other = true ∧
      preference rank wgIndex other < preference rank wgIndex r ∧
      (other ∉ plan.stale ∨ r ∈ plan.stale ∧ rank (slot r) < rank (slot other))

/-- In a listing by rank the routes up to some point are those of smaller rank. -/
theorem mem_take_of_rank {stale : List Route}
    (ordered : stale.Pairwise fun a b => rank (slot a) < rank (slot b))
    (member : b ∈ stale.take j) (here : a ∈ stale) (before : rank (slot a) < rank (slot b)) :
    a ∈ stale.take j := by
  rw [← List.take_append_drop j stale] at here ordered
  rcases List.mem_append.mp here with early | late
  · exact early
  · exact absurd ((List.pairwise_append.mp ordered).2.2 b member a late) (lt_asymm before)

/-- Steady tables are those that keep the choice throughout the deletes. -/
theorem steady_iff_keeps (injective : Function.Injective rank)
    (ordered : plan.stale.Pairwise fun a b => rank (slot a) < rank (slot b)) :
    Steady rank wgIndex plan t ↔
      ∀ j, Keeps rank wgIndex plan
        ((plan.stale.take j).foldl SlotTable.delete (plan.replaced wgIndex t)) := by
  constructor
  · intro steady j
    obtain ⟨anchor, present, eligible, lasting⟩ := steady.anchored
    have remains := SlotTable.mem_deleteAll (plan.stale.take j) |>.mpr
      ⟨present, fun deleted => lasting (List.mem_of_mem_take deleted)⟩
    obtain ⟨r, chosen⟩ := exists_chosen injective remains eligible
    refine ⟨r, chosen, ?_⟩
    by_contra elsewhere
    obtain ⟨here, undeleted⟩ := (SlotTable.mem_deleteAll _).mp chosen.member
    obtain ⟨other, there, possible, preferred, outlasts⟩ :=
      steady.shadowed r here chosen.eligible elsewhere
    have gone : other ∈ plan.stale.take j := by
      by_contra still
      exact absurd (chosen.least other ((SlotTable.mem_deleteAll _).mpr ⟨there, still⟩) possible)
        (not_le_of_gt preferred)
    rcases outlasts with never | ⟨stale, later⟩
    · exact never (List.mem_of_mem_take gone)
    · exact undeleted (mem_take_of_rank ordered gone stale later)
  · intro keeps
    obtain ⟨last, chosen, carries⟩ := keeps plan.stale.length
    obtain ⟨present, undeleted⟩ := (SlotTable.mem_deleteAll _).mp chosen.member
    rw [List.take_length] at undeleted
    refine ⟨⟨last, present, chosen.eligible, undeleted⟩, fun r here eligible elsewhere => ?_⟩
    -- The choice made while r is still there and all stale routes before it are gone.
    have at_stop : ∀ j, r ∉ plan.stale.take j → ∃ other ∈ (plan.replaced wgIndex t).entries,
        other ≠ r ∧ other ∉ plan.stale.take j ∧ candidate wgIndex other = true ∧
          preference rank wgIndex other < preference rank wgIndex r := by
      intro j waiting
      obtain ⟨other, first, carried⟩ := keeps j
      obtain ⟨there, remaining⟩ := (SlotTable.mem_deleteAll _).mp first.member
      have differs : other ≠ r := by
        rintro rfl
        exact elsewhere carried
      have before := first.least r ((SlotTable.mem_deleteAll _).mpr ⟨here, waiting⟩) eligible
      exact ⟨other, there, differs, remaining, first.eligible, lt_of_le_of_ne before fun same =>
        differs (preference_injective injective there here same)⟩
    by_cases stale : r ∈ plan.stale
    · obtain ⟨front, back, split⟩ := List.append_of_mem stale
      rw [split] at ordered
      obtain ⟨-, tail, across⟩ := List.pairwise_append.mp ordered
      have taken : plan.stale.take front.length = front := by rw [split, List.take_left']; rfl
      obtain ⟨other, there, differs, remaining, possible, preferred⟩ := at_stop front.length (by
        rw [taken]
        exact fun early => lt_irrefl _ (across r early r List.mem_cons_self))
      refine ⟨other, there, possible, preferred, ?_⟩
      by_cases deleted : other ∈ plan.stale
      · refine .inr ⟨stale, ?_⟩
        rw [taken] at remaining
        rw [split, List.mem_append, List.mem_cons] at deleted
        rcases deleted with early | same | late
        · exact absurd early remaining
        · exact absurd same differs
        · exact (List.pairwise_cons.mp tail).1 other late
      · exact .inl deleted
    · obtain ⟨other, there, -, remaining, possible, preferred⟩ :=
        at_stop plan.stale.length fun early =>
        stale (List.mem_of_mem_take early)
      rw [List.take_length] at remaining
      exact ⟨other, there, possible, preferred, .inl remaining⟩

/-- The next pass finds the gateway of this one wherever this one stops, on exactly the
steady tables. -/
theorem interrupted_pass_keeps_gateway_iff (rank : Prefix × Nat → ι)
    (injective : Function.Injective rank)
    (wgIndex : Nat) (localCIDRs : List Prefix) (t : MainTable) (listed : List Route)
    (plan : RoutePlan)
    (order : Ranked rank t listed) (planned : planRoutes listed wgIndex localCIDRs = .ok plan) :
    (∀ events outcome t' listed',
      Trace (Kernel (Ranked rank)) t (ensureRoutes wgIndex localCIDRs) events outcome t' →
        Ranked rank t' listed' →
      ∃ next, planRoutes listed' wgIndex localCIDRs = .ok next ∧ next.gw = plan.gw ∧
        next.gwLink = plan.gwLink) ↔
    Steady rank wgIndex plan t := by
  have ordered : plan.stale.Pairwise fun a b => rank (slot a) < rank (slot b) := by
    obtain ⟨source, -, rfl⟩ := planRoutes_ok.mp planned
    exact order.2.sublist List.filter_sublist
  have keeps : Keeps rank wgIndex plan t :=
    (keeps_iff_planRoutes injective order).mpr ⟨plan, planned, rfl, rfl⟩
  rw [steady_iff_keeps injective ordered]
  constructor
  · intro survives j
    obtain ⟨k, reached⟩ := stop_deleting plan wgIndex j t
    obtain ⟨events, run⟩ := ensureRoutes_stoppable order planned k
    obtain ⟨listed', order'⟩ :=
      exists_ranked injective (runAll t ((plan.operations wgIndex).take k))
    rw [← reached]
    exact (keeps_iff_planRoutes injective order').mpr (survives _ _ _ _ run order')
  · intro deleting events outcome t' listed' run order'
    refine (keeps_iff_planRoutes injective order').mp ?_
    rcases ensureRoutes_stops run with ⟨rfl, -⟩ | ⟨dumped, plan', k, -, ranked, planned', rfl, -⟩
    · exact keeps
    · -- A table has one listing by rank, so the pass made the same plan.
      have same : dumped.map toRoute = listed :=
        (ranked.1.trans order.1.symm).eq_of_pairwise
        (fun a b _ _ before after => (lt_asymm before after).elim) ranked.2 order.2
      obtain rfl : plan = plan' := by
        rw [same, planned] at planned'
        exact Except.ok.inj planned'
      rcases stop_cases plan wgIndex k t with ⟨ps, stopped⟩ | ⟨j, stopped⟩
      · rw [stopped]
        exact keeps_replaceLocal (plan_gateway planned) keeps ps
      · rw [stopped]
        exact deleting j

/-- A table is steady if all the routes the gateway can be read from go one way. -/
theorem steady_of_one_gateway (planned : planRoutes listed wgIndex localCIDRs = .ok plan)
    (nonempty : localCIDRs ≠ []) (proper : ∀ p ∈ localCIDRs, p.bits ≠ 0)
    (agree : ∀ r ∈ t.entries, candidate wgIndex r = true → Carries plan r) :
    Steady rank wgIndex plan t := by
  have gateway := plan_gateway planned
  obtain ⟨source, -, rfl⟩ := planRoutes_ok.mp planned
  let plan : RoutePlan := ⟨source.gw, source.linkIndex, localCIDRs,
    listed.filter (isStale wgIndex localCIDRs)⟩
  have after : ∀ r, r ∈ (plan.replaced wgIndex t).entries ↔ _ := fun r =>
    SlotTable.mem_replaceAll (installed_consistent proper)
  constructor
  · obtain ⟨p, member⟩ := List.exists_mem_of_ne_nil _ nonempty
    have new : toRoute (localRoute plan p) ∈ plan.installed wgIndex :=
      mem_installed.mpr (.inl ⟨p, member, rfl⟩)
    refine ⟨_, (after _).mpr (.inr new), ?_, fun stale => ?_⟩
    · have via : plan.gw.isSome = true := gateway
      simp [candidate, ownGateway, toRoute, localRoute, via]
    · have kept := installed_kept proper new
      rw [(List.mem_filter.mp stale).2] at kept
      contradiction
  · intro r member eligible elsewhere
    exfalso
    rcases (after r).mp member with ⟨old, -⟩ | new
    · exact elsewhere (agree r old eligible)
    · rcases mem_installed.mp new with ⟨p, -, rfl⟩ | rfl
      · exact elsewhere ⟨rfl, rfl⟩
      · simp [candidate, cniDefault, ownGateway, toRoute, wgDefault] at eligible

end Keeps

section Sample

/-- The order of a dump: by destination, then by metric. -/
def dumpRank : Prefix × Nat → List Nat
  | (⟨.v4 value, bits, _⟩, metric) => [4, value.toNat, bits, metric]
  | (⟨.v6 value zone, bits, _⟩, metric) =>
    6 :: value.toNat :: bits :: metric :: zone.toList.map Char.toNat

theorem dumpRank_injective : Function.Injective dumpRank := by
  rintro ⟨⟨address, bits, bound⟩, metric⟩ ⟨⟨address', bits', bound'⟩, metric'⟩ same
  cases address with
  | v4 value =>
    cases address' with
    | v4 value' =>
      simp only [dumpRank, List.cons.injEq, true_and, and_true, BitVec.toNat_inj] at same
      obtain ⟨rfl, rfl, rfl⟩ := same
      rfl
    | v6 value' zone' => simp [dumpRank] at same
  | v6 value zone =>
    cases address' with
    | v4 value' => simp [dumpRank] at same
    | v6 value' zone' =>
      simp only [dumpRank, List.cons.injEq, true_and, BitVec.toNat_inj] at same
      obtain ⟨rfl, rfl, rfl, zones⟩ := same
      obtain rfl : zone = zone' := by
        refine String.toList_injective (List.map_injective_iff.mpr ?_ zones)
        exact fun a b equal => Char.ext (UInt32.toNat_inj.mp equal)
      rfl

theorem gateway_survives_with_one_default : ∃ plan,
    planRoutes podTable.entries wg0 [podCIDR, serviceCIDR] = .ok plan ∧ plan.gw = some cniGateway ∧
      ∀ events outcome t' listed',
        Trace (Kernel (Ranked dumpRank)) podTable
          (ensureRoutes wg0 [podCIDR, serviceCIDR]) events outcome t' →
        Ranked dumpRank t' listed' →
          ∃ next, planRoutes listed' wg0 [podCIDR, serviceCIDR] = .ok next ∧
          next.gw = plan.gw ∧ next.gwLink = plan.gwLink := by
  have planned : planRoutes podTable.entries wg0 [podCIDR, serviceCIDR] = .ok _ := rfl
  refine ⟨_, planned, rfl, ?_⟩
  refine (interrupted_pass_keeps_gateway_iff dumpRank dumpRank_injective wg0
    [podCIDR, serviceCIDR] podTable podTable.entries _ ⟨.refl _, by decide⟩ planned).mpr ?_
  exact steady_of_one_gateway planned (by decide) (by decide) (by decide)

def otherGateway : Addr := .v4 0xc0a80101#32

/-- A pod with a second interface, whose default route has a larger metric. -/
def twoDefaults : MainTable where
  entries := [⟨defaultDst, some cniGateway, eth0, 0, 3, scopeUniverse⟩,
    ⟨defaultDst, some otherGateway, 3, 100, 3, scopeUniverse⟩]
  distinct := by decide

/-- A pass that stops before it deletes the second default route leaves the next pass
with that route's gateway. -/
theorem interruptedPass_switches_gateway : ∃ plan events t' listed' next,
    Ranked dumpRank twoDefaults twoDefaults.entries ∧
    planRoutes twoDefaults.entries wg0 [podCIDR, serviceCIDR] = .ok plan ∧
      plan.gw = some cniGateway ∧
    Trace (Kernel (Ranked dumpRank)) twoDefaults
      (ensureRoutes wg0 [podCIDR, serviceCIDR]) events .cut t' ∧
    Ranked dumpRank t' listed' ∧ planRoutes listed' wg0 [podCIDR, serviceCIDR] = .ok next ∧
    next.gw = some otherGateway := by
  have order : Ranked dumpRank twoDefaults twoDefaults.entries := ⟨.refl _, by decide⟩
  have planned : planRoutes twoDefaults.entries wg0 [podCIDR, serviceCIDR] = .ok _ := rfl
  obtain ⟨events, run⟩ := ensureRoutes_stoppable order planned 3
  refine ⟨_, events, _, [⟨defaultDst, none, wg0, 0, routeProtocol, scopeLink⟩,
    ⟨defaultDst, some otherGateway, 3, 100, 3, scopeUniverse⟩,
    ⟨serviceCIDR, some cniGateway, eth0, 0, routeProtocol, scopeUniverse⟩,
    ⟨podCIDR, some cniGateway, eth0, 0, routeProtocol, scopeUniverse⟩], _, order, planned, rfl, run,
    ⟨?_, ?_⟩, rfl, rfl⟩
  · decide +kernel
  · decide

end Sample
end TunnelOperator.Sidecar
