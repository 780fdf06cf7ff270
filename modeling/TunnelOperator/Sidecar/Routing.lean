import TunnelOperator.Sidecar.RoutesProofs

/-! The main table after a completed pass, from every table that passes and the CNI can
leave behind. -/
namespace TunnelOperator.Sidecar
open Netip Net Program

section Plans
variable {t t' : MainTable} {plan : RoutePlan} {wgIndex : Nat} {localCIDRs : List Prefix}
    {listed : List Route}

theorem planRoutes_ok : planRoutes listed wgIndex localCIDRs = .ok plan ↔
    ∃ r, gatewayRoute listed wgIndex = some r ∧
      plan = ⟨r.gw, r.linkIndex, localCIDRs, listed.filter (isStale wgIndex localCIDRs)⟩ := by
  unfold planRoutes
  split
  · rename_i missing
    simp [missing]
  · rename_i r found
    simp [found, eq_comm]

/-- The gateway is read from a route that has one, off wg0 if it is a default route. -/
theorem gatewayRoute_some (found : gatewayRoute listed wgIndex = some r) :
    r ∈ listed ∧ (cniDefault wgIndex r = true ∨ ownGateway r = true ∧
      ∀ d ∈ listed, cniDefault wgIndex d = false) := by
  rcases Option.or_eq_some_iff.mp found with first | ⟨missing, second⟩
  · exact ⟨List.mem_of_find?_eq_some first, .inl (List.find?_some first)⟩
  · refine ⟨List.mem_of_find?_eq_some second, .inr ⟨List.find?_some second, ?_⟩⟩
    simpa using missing

/-- The routes a plan installs. -/
def RoutePlan.installed (plan : RoutePlan) (wgIndex : Nat) : List Route :=
  plan.localCIDRs.map (fun p => toRoute (localRoute plan p)) ++ [toRoute (wgDefault wgIndex)]

theorem mem_installed : r ∈ plan.installed wgIndex ↔
    (∃ p ∈ plan.localCIDRs, r = toRoute (localRoute plan p)) ∨ r = toRoute (wgDefault wgIndex) := by
  simp [RoutePlan.installed, eq_comm]

theorem operations_eq : plan.operations wgIndex =
    (plan.installed wgIndex).map .replace ++ plan.stale.map .delete := by
  simp [RoutePlan.operations, RoutePlan.installed, Function.comp_def]

theorem runAll_operations : runAll t (plan.operations wgIndex) =
    plan.stale.foldl SlotTable.delete ((plan.installed wgIndex).foldl SlotTable.replace t) := by
  rw [operations_eq, runAll, List.foldl_append, List.foldl_map, List.foldl_map]
  rfl

theorem installed_consistent (proper : ∀ p ∈ plan.localCIDRs, p.bits ≠ 0) :
    ∀ a ∈ plan.installed wgIndex, ∀ b ∈ plan.installed wgIndex, slot a = slot b → a = b := by
  have apart : ∀ p ∈ plan.localCIDRs, p ≠ defaultDst := by
    rintro p member rfl
    exact proper _ member rfl
  intro a first b second same
  rcases mem_installed.mp first with ⟨p, here, rfl⟩ | rfl
  · rcases mem_installed.mp second with ⟨q, there, rfl⟩ | rfl
    · obtain rfl : p = q := congrArg Prod.fst same
      rfl
    · exact absurd (congrArg Prod.fst same) (apart p here)
  · rcases mem_installed.mp second with ⟨q, there, rfl⟩ | rfl
    · exact absurd (congrArg Prod.fst same).symm (apart q there)
    · rfl

theorem installed_kept (proper : ∀ p ∈ plan.localCIDRs, p.bits ≠ 0)
    (member : r ∈ plan.installed wgIndex) :
    isStale wgIndex plan.localCIDRs r = false := by
  rcases mem_installed.mp member with ⟨p, here, rfl⟩ | rfl
  · simp [isStale, isDefault, toRoute, localRoute, proper p here, here]
  · simp [isStale, isDefault, toRoute, wgDefault, defaultDst]

/-- The table after all operations of a plan made from its listing. -/
theorem mem_completed (order : listed.Perm t.entries)
    (planned : planRoutes listed wgIndex localCIDRs = .ok plan)
    (proper : ∀ p ∈ localCIDRs, p.bits ≠ 0) :
    r ∈ (runAll t (plan.operations wgIndex)).entries ↔
      (r ∈ t.entries ∧ (∀ new ∈ plan.installed wgIndex, slot r ≠ slot new) ∧
        isStale wgIndex localCIDRs r = false) ∨ r ∈ plan.installed wgIndex := by
  obtain ⟨source, -, rfl⟩ := planRoutes_ok.mp planned
  rw [runAll_operations, SlotTable.mem_deleteAll,
    SlotTable.mem_replaceAll (installed_consistent proper)]
  simp only [List.mem_filter, order.mem_iff]
  constructor
  · rintro ⟨⟨member, apart⟩ | new, kept⟩
    · exact .inl ⟨member, apart, by simpa [member] using kept⟩
    · exact .inr new
  · rintro (⟨member, apart, kept⟩ | new)
    · exact ⟨.inl ⟨member, apart⟩, by simp [kept]⟩
    · refine ⟨.inr new, fun stale => ?_⟩
      rw [installed_kept proper new] at stale
      exact absurd stale.2 (by decide)

end Plans

/-- The tables that passes, complete or not, and changes of the CNI's own routes leave of
a table the CNI made. -/
inductive Reachable (wgIndex : Nat) : MainTable → Prop
  | cni (unmarked : ∀ r ∈ t.entries, r.protocol ≠ routeProtocol) : Reachable wgIndex t
  | pass (before : Reachable wgIndex t) (proper : ∀ p ∈ localCIDRs, p.bits ≠ 0)
      (run : Trace (Kernel AnyOrder) t (ensureRoutes wgIndex localCIDRs) events outcome t') :
      Reachable wgIndex t'
  | change (before : Reachable wgIndex t)
      (same : ∀ r, r.protocol = routeProtocol → (r ∈ t'.entries ↔ r ∈ t.entries)) :
      Reachable wgIndex t'

section Histories
variable {t t' : MainTable} {wgIndex : Nat} {localCIDRs : List Prefix}

/-- The client's own routes have metric 0, and its only default route is the one via wg0. -/
def Marked (wgIndex : Nat) (r : Route) : Prop :=
  r.protocol = routeProtocol → r.priority = 0 ∧
    (isDefault r = true → r = toRoute (wgDefault wgIndex))

theorem installed_marked {plan : RoutePlan} (proper : ∀ p ∈ plan.localCIDRs, p.bits ≠ 0)
    (member : r ∈ plan.installed wgIndex) : Marked wgIndex r := by
  intro _
  rcases mem_installed.mp member with ⟨p, here, rfl⟩ | rfl
  · exact ⟨rfl, fun isDef => absurd (of_decide_eq_true isDef) (proper p here)⟩
  · exact ⟨rfl, fun _ => rfl⟩

/-- A route is an old one or one that was installed. -/
theorem mem_runAll (member : r ∈ (runAll t ops).entries) :
    r ∈ t.entries ∨ RouteOp.replace r ∈ ops := by
  induction ops generalizing t with
  | nil => exact .inl member
  | cons op rest ih =>
    rcases ih (t := op.run t) member with before | later
    · cases op with
      | replace new =>
        rcases SlotTable.mem_replace.mp before with ⟨old, -⟩ | rfl
        · exact .inl old
        · exact .inr List.mem_cons_self
      | delete gone => exact .inl (SlotTable.mem_delete.mp before).1
    · exact .inr (List.mem_cons_of_mem _ later)

theorem run_marked (marked : ∀ r ∈ t.entries, Marked wgIndex r)
    (installs : ∀ r, RouteOp.replace r ∈ ops → Marked wgIndex r) :
    ∀ r ∈ (runAll t ops).entries, Marked wgIndex r :=
  fun r member => (mem_runAll member).elim (marked r) (installs r)

theorem reachable_marked (reachable : Reachable wgIndex t) : ∀ r ∈ t.entries, Marked wgIndex r := by
  induction reachable with
  | cni unmarked => exact fun r member own => absurd own (unmarked r member)
  | change before same ih => exact fun r member own => ih r ((same r own).mp member) own
  | @pass t localCIDRs events outcome t' before proper run ih =>
    rcases ensureRoutes_stops run with ⟨rfl, -⟩ | ⟨dumped, plan, k, -, -, planned, rfl, -⟩
    · exact ih
    · refine run_marked ih fun r member => ?_
      obtain ⟨source, -, rfl⟩ := planRoutes_ok.mp planned
      have listed := List.mem_of_mem_take member
      rw [operations_eq, List.mem_append] at listed
      rcases listed with new | old
      · obtain ⟨route, here, same⟩ := List.mem_map.mp new
        obtain rfl := RouteOp.replace.inj same
        exact installed_marked proper here
      · obtain ⟨route, -, same⟩ := List.mem_map.mp old
        contradiction

end Histories

section Completed
variable {t t' : MainTable} {wgIndex : Nat} {localCIDRs : List Prefix} {plan : RoutePlan}
    {listed : List Route}

/-- What a pass leaves, in terms of the gateway and link it chose. -/
structure Settled (wgIndex : Nat) (localCIDRs : List Prefix) (gw : Option Addr) (link : Nat)
    (t t' : MainTable) :
    Prop where
  defaults : ∀ r ∈ t'.entries, isDefault r = true → r.linkIndex = wgIndex
  locals : ∀ p ∈ localCIDRs, ∃ r ∈ t'.entries, r.dst = p ∧ r.priority = 0 ∧
    r.protocol = routeProtocol ∧
    r.gw = gw ∧ r.linkIndex = link
  own : ∀ r ∈ t'.entries, r.protocol = routeProtocol →
    r.dst ∈ localCIDRs ∧ r.priority = 0 ∧ r.gw = gw ∧ r.linkIndex = link ∨
      r = toRoute (wgDefault wgIndex)
  others : ∀ r, isDefault r = false → r.protocol ≠ routeProtocol → r.dst ∉ localCIDRs →
    (r ∈ t'.entries ↔ r ∈ t.entries)

theorem settled_completed (marked : ∀ r ∈ t.entries, Marked wgIndex r)
    (proper : ∀ p ∈ localCIDRs, p.bits ≠ 0)
    (order : listed.Perm t.entries) (planned : planRoutes listed wgIndex localCIDRs = .ok plan) :
    Settled wgIndex localCIDRs plan.gw plan.gwLink t (runAll t (plan.operations wgIndex)) := by
  have after := fun r => mem_completed (r := r) order planned proper
  obtain ⟨source, -, rfl⟩ := planRoutes_ok.mp planned
  constructor
  · intro r member isDef
    rcases (after r).mp member with ⟨-, -, kept⟩ | new
    · simpa [isStale, isDef] using kept
    · rcases mem_installed.mp new with ⟨p, here, rfl⟩ | rfl
      · exact absurd (of_decide_eq_true isDef) (proper p here)
      · rfl
  · intro p member
    exact ⟨_, (after _).mpr (.inr (mem_installed.mpr (.inl ⟨p, member, rfl⟩))), rfl, rfl,
      rfl, rfl, rfl⟩
  · intro r member own
    rcases (after r).mp member with ⟨old, apart, kept⟩ | new
    · obtain ⟨metric, onlyDefault⟩ := marked r old own
      by_cases isDef : isDefault r = true
      · exact .inr (onlyDefault isDef)
      · -- A route of its own that is not stale is for an entry, and that slot was replaced.
        have entry : r.dst ∈ localCIDRs := by simpa [isStale, isDef, own] using kept
        refine absurd ?_ (apart _ (mem_installed.mpr (.inl ⟨r.dst, entry, rfl⟩)))
        simp [slot, toRoute, localRoute, metric]
    · rcases mem_installed.mp new with ⟨p, here, rfl⟩ | rfl
      · exact .inl ⟨here, rfl, rfl, rfl⟩
      · exact .inr rfl
  · intro r notDefault foreign elsewhere
    rw [after]
    constructor
    · rintro (⟨old, -⟩ | new)
      · exact old
      · rcases mem_installed.mp new with ⟨p, here, rfl⟩ | rfl
        · exact absurd rfl foreign
        · exact absurd rfl foreign
    · intro old
      refine .inl ⟨old, fun new member same => ?_, by simp [isStale, notDefault, foreign]⟩
      have dst : r.dst = new.dst := congrArg Prod.fst same
      rcases mem_installed.mp member with ⟨p, here, rfl⟩ | rfl
      · exact elsewhere (dst ▸ here)
      · simp [isDefault, dst, toRoute, wgDefault, defaultDst] at notDefault

/-- A settled table gives the same gateway back, and nothing to delete. -/
theorem planRoutes_settled (settled : Settled wgIndex localCIDRs gw link t t')
    (nonempty : localCIDRs ≠ []) (gateway : gw.isSome = true) (order : listed.Perm t'.entries) :
    planRoutes listed wgIndex localCIDRs = .ok ⟨gw, link, localCIDRs, []⟩ := by
  have noDefault : listed.find? (cniDefault wgIndex) = none := by
    rw [List.find?_eq_none]
    intro r member chosen
    simp only [cniDefault, Bool.and_eq_true, decide_eq_true_eq] at chosen
    exact chosen.1.2 (settled.defaults r (order.mem_iff.mp member) chosen.1.1)
  have someOwn : ∃ r, listed.find? ownGateway = some r := by
    obtain ⟨p, member⟩ := List.exists_mem_of_ne_nil _ nonempty
    obtain ⟨r, present, -, -, own, via, -⟩ := settled.locals p member
    rw [← Option.isSome_iff_exists, List.find?_isSome]
    exact ⟨r, order.mem_iff.mpr present, by simp [ownGateway, own, via, gateway]⟩
  obtain ⟨r, found⟩ := someOwn
  have chosen := List.find?_some found
  simp only [ownGateway, Bool.and_eq_true, decide_eq_true_eq] at chosen
  have nothing : listed.filter (isStale wgIndex localCIDRs) = [] := by
    rw [List.filter_eq_nil_iff]
    intro r member stale
    have present := order.mem_iff.mp member
    unfold isStale at stale
    split at stale
    · rename_i isDef
      exact of_decide_eq_true stale (settled.defaults r present isDef)
    · rename_i notDefault
      simp only [Bool.and_eq_true, decide_eq_true_eq] at stale
      rcases settled.own r present stale.1 with ⟨entry, -⟩ | rfl
      · exact stale.2 entry
      · exact notDefault rfl
  refine planRoutes_ok.mpr ⟨r, ?_, ?_⟩
  · rw [gatewayRoute, noDefault, Option.none_or, found]
  · rcases settled.own r (order.mem_iff.mp (List.mem_of_find?_eq_some found)) chosen.1 with
      ⟨-, -, via, on⟩ | rfl
    · rw [nothing, via, on]
    · exact absurd chosen.2 (by simp [toRoute, wgDefault])

theorem plan_gateway (planned : planRoutes listed wgIndex localCIDRs = .ok plan) :
    plan.gw.isSome = true := by
  obtain ⟨source, found, rfl⟩ := planRoutes_ok.mp planned
  rcases (gatewayRoute_some found).2 with chosen | ⟨chosen, -⟩
  · simp only [cniDefault, Bool.and_eq_true] at chosen
    exact chosen.2
  · simp only [ownGateway, Bool.and_eq_true] at chosen
    exact chosen.2

/-- From every reachable table a pass that returns leaves all default routes on wg0, each
entry of localCIDRs with a route via the gateway it chose, no other route of its own but
the default, and every other route as it was; and the next listing, in whatever order,
gives the same gateway and nothing to delete. -/
theorem routing_after_pass (wgIndex : Nat) (localCIDRs : List Prefix) (t t' : MainTable)
    (reachable : Reachable wgIndex t) (nonempty : localCIDRs ≠ [])
    (proper : ∀ p ∈ localCIDRs, p.bits ≠ 0)
    (run : Trace (Kernel AnyOrder) t (ensureRoutes wgIndex localCIDRs) events (.done ()) t') :
    ∃ dumped plan, ⟨.routeList .v4, .ok dumped⟩ ∈ events ∧
      planRoutes (dumped.map toRoute) wgIndex localCIDRs = .ok plan ∧
      Settled wgIndex localCIDRs plan.gw plan.gwLink t t' ∧
      ∀ listed, AnyOrder t' listed →
        planRoutes listed wgIndex localCIDRs = .ok ⟨plan.gw, plan.gwLink, localCIDRs, []⟩ := by
  rcases ensureRoutes_stops run with ⟨-, stopped⟩
    | ⟨dumped, plan, k, dumping, order, planned, rfl, whole⟩
  · exact absurd rfl stopped
  · have settled := settled_completed (reachable_marked reachable) proper order planned
    rw [List.take_of_length_le (whole rfl)]
    exact ⟨dumped, plan, dumping, planned, settled, fun listed order' =>
      planRoutes_settled settled nonempty (plan_gateway planned) order'⟩

end Completed

/-! A pod whose CNI made two default routes and the pod subnet's route. -/

section Sample

/-- A kernel that can be run: every call succeeds. -/
def netlinkHandler : Handler NetlinkCall NetlinkAnswer MainTable := fun t request =>
  match request with
  | .routeList .v4 => (.ok (t.entries.map staleRoute), t)
  | .routeList .v6 => (.ok [], t)
  | .routeReplace r => (.ok (), t.replace (toRoute r))
  | .routeDel .v4 r => if toRoute r ∈ t.entries then (.ok (), t.delete (toRoute r))
    else (.error .esrch, t)
  | .routeDel .v6 _ => (.ok (), t)

theorem netlinkHandler_answers {lists : MainTable → List Route → Prop}
    (inOrder : ∀ t, lists t t.entries) (t : MainTable) (request : NetlinkCall) :
    Kernel lists t request (netlinkHandler t request).1 (netlinkHandler t request).2 := by
  cases request with
  | routeList family =>
    cases family with
    | v4 =>
      have dumped : (t.entries.map staleRoute).map toRoute = t.entries := by
        rw [List.map_map]
        exact List.map_id _
      exact .list (dumped.symm ▸ inOrder t)
    | v6 => exact .list6 _
  | routeReplace r => exact .replace r
  | routeDel family r =>
    cases family with
    | v4 =>
      simp only [netlinkHandler]
      split
      · rename_i present
        exact .delete present
      · rename_i absent
        exact .gone absent
    | v6 => exact .delete6 _ _

def eth0 : Nat := 2
def wg0 : Nat := 5
def cniGateway : Addr := .v4 0x0af40001#32
def podCIDR : Prefix := ⟨.v4 0x0af40000#32, 16, by decide⟩
def serviceCIDR : Prefix := ⟨.v4 0x0a600000#32, 12, by decide⟩
def podSubnet : Route := ⟨⟨.v4 0x0af40000#32, 24, by decide⟩, none, eth0, 0, 2, scopeLink⟩

def podTable : MainTable where
  entries := [⟨defaultDst, some cniGateway, eth0, 0, 3, scopeUniverse⟩,
    ⟨defaultDst, none, 3, 200, 3, scopeLink⟩, podSubnet]
  distinct := by decide

theorem routing_after_first_pass : ∃ t' : MainTable,
    t'.entries = [podSubnet, ⟨podCIDR, some cniGateway, eth0, 0, routeProtocol, scopeUniverse⟩,
      ⟨serviceCIDR, some cniGateway, eth0, 0, routeProtocol, scopeUniverse⟩,
      ⟨defaultDst, none, wg0, 0, routeProtocol, scopeLink⟩] ∧
    ∃ plan : RoutePlan, Settled wg0 [podCIDR, serviceCIDR] plan.gw plan.gwLink podTable t' := by
  have anyOrder : ∀ t : MainTable, AnyOrder t t.entries := fun t => List.Perm.refl t.entries
  have run := play_trace netlinkHandler (netlinkHandler_answers anyOrder)
    (ensureRoutes wg0 [podCIDR, serviceCIDR]) podTable
  have returns : ((ensureRoutes wg0 [podCIDR, serviceCIDR]).play netlinkHandler podTable).2.1 =
      .done () :=
    Outcome.value_eq_some.mp (by decide +kernel)
  rw [returns] at run
  have reachable : Reachable wg0 podTable := .cni (by decide)
  obtain ⟨dumped, plan, -, -, settled, -⟩ :=
    routing_after_pass wg0 [podCIDR, serviceCIDR] podTable _ reachable (by decide) (by decide) run
  exact ⟨_, by decide +kernel, plan, settled⟩

end Sample
end TunnelOperator.Sidecar
