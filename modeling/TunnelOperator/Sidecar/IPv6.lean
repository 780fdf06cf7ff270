import TunnelOperator.Sidecar.Routing

/-! deleteIPv6Defaults over the IPv6 table of the pod: what a pass that returns has deleted,
and that no pass deletes another route than a default one. -/
namespace TunnelOperator.Sidecar
open Netip Program

def isDefault6 (r : NetlinkRoute) : Bool := r.dst.all (·.bits = 0)

/-- The gateway is an IPv4 address in IPv6 form, which the kernel admits. -/
def viaMapped (r : NetlinkRoute) : Bool := r.gw.any (·.unmap.is4)

/-- An entry of the IPv6 table: a route, for packets from `source` only where that is given.
The dump does not show it to the client. -/
structure Route6 where
  route : NetlinkRoute
  source : Option Prefix
  deriving DecidableEq

/-- A default route for packets from anywhere. -/
def Route6.plain (e : Route6) : Bool := e.source = none && isDefault6 e.route

/-- The IPv6 main table, in the kernel's order. A default route may come without Dst. A
kernel without an IPv6 stack has no routes. -/
structure Table6 where
  stack : Bool
  routes : List Route6
  bare : stack = false → routes = []
  ipv6 : ∀ e ∈ routes, ∀ p, e.route.dst = some p → p.bits = 0 → p = defaultDst6

/-- A delete gives the destination, and of the other fields those that are set. -/
def matchesRoute (want r : NetlinkRoute) : Bool :=
  want.dst.getD defaultDst6 = r.dst.getD defaultDst6 && (want.gw = none || want.gw = r.gw) &&
    (want.linkIndex = 0 || want.linkIndex = r.linkIndex) &&
    (want.priority = 0 || want.priority = r.priority) &&
    (want.protocol = 0 || want.protocol = r.protocol)

/-- It gives no source, so that it is about routes for packets from anywhere. -/
def matchesEntry (want : NetlinkRoute) (e : Route6) : Bool :=
  e.source = none && matchesRoute want e.route

/-- The first route that matches goes. -/
def Table6.delete (t : Table6) (want : NetlinkRoute) : Table6 where
  stack := t.stack
  routes := t.routes.eraseP (matchesEntry want)
  bare down := by rw [t.bare down, List.eraseP_nil]
  ipv6 e member := t.ipv6 e (List.mem_of_mem_eraseP member)

/-- How the kernel answers the calls on the IPv6 table; the others do not touch it. Without
an IPv6 stack a dump is refused or lists routes of other families, and a delete is refused. -/
inductive Kernel6 : Table6 → (request : NetlinkCall) → NetlinkAnswer request → Table6 → Prop where
  | list4 : Kernel6 t (.routeList .v4) answer t
  | replace4 : Kernel6 t (.routeReplace r) answer t
  | delete4 : Kernel6 t (.routeDel .v4 r) answer t
  | list (up : t.stack = true) : Kernel6 t (.routeList .v6) (.ok (t.routes.map Route6.route)) t
  | listAll (down : t.stack = false) (others : List NetlinkRoute) :
    Kernel6 t (.routeList .v6) (.ok others) t
  | listRefused (down : t.stack = false) (refused : noIPv6Stack e = true) :
    Kernel6 t (.routeList .v6) (.error e) t
  | listFails (fault : noIPv6Stack e = false) : Kernel6 t (.routeList .v6) (.error e) t
  | delete (found : ∃ e ∈ t.routes, matchesEntry want e = true) :
    Kernel6 t (.routeDel .v6 want) (.ok ()) (t.delete want)
  | gone (absent : ∀ e ∈ t.routes, ¬ matchesEntry want e = true) :
    Kernel6 t (.routeDel .v6 want) (.error .esrch) t
  | deleteRefused (down : t.stack = false) (refused : noIPv6Stack e = true) :
    Kernel6 t (.routeDel .v6 want) (.error e) t
  | deleteFails (present : e ≠ .esrch) (fault : noIPv6Stack e = false) :
    Kernel6 t (.routeDel .v6 want) (.error e) t

/-- Both main tables of the pod. -/
structure DualTable where
  main : MainTable
  six : Table6

def dualEnv : Environment NetlinkCall NetlinkAnswer DualTable := fun s request answer s' =>
  Kernel AnyOrder s.main request answer s'.main ∧ Kernel6 s.six request answer s'.six

variable {s s' : DualTable} {e : Route6} {outcome : Outcome String Unit}

/-! What a delete takes. -/

/-- The delete of a default route matches it, and no route that is none. -/
theorem Route6.matches_self (ipv6 : ∀ p, e.route.dst = some p → p.bits = 0 → p = defaultDst6)
    (plain : e.plain = true) :
    matchesEntry (ipv6Default e.route) e = true := by
  simp only [Route6.plain, Bool.and_eq_true, decide_eq_true_eq] at plain
  have dst : e.route.dst.getD defaultDst6 = defaultDst6 := by
    cases given : e.route.dst with
    | none => rfl
    | some p =>
      have isDef := plain.2
      rw [isDefault6, given] at isDef
      exact ipv6 p given (by simpa using isDef)
  simp [matchesEntry, plain.1, matchesRoute, ipv6Default, dst]

theorem matches_plain (matching : matchesEntry (ipv6Default r) e = true) : e.plain = true := by
  simp only [matchesEntry, matchesRoute, Bool.and_eq_true, decide_eq_true_eq] at matching
  have dst : defaultDst6 = e.route.dst.getD defaultDst6 := matching.2.1.1.1.1
  have isDef : isDefault6 e.route = true := by
    cases given : e.route.dst with
    | none => simp [isDefault6, given]
    | some p =>
      rw [given, Option.getD_some] at dst
      simp [isDefault6, given, ← dst, defaultDst6]
  simp [Route6.plain, matching.1, isDef]

/-- A default route that the pass skips goes via an IPv4 address. -/
theorem skipped_mapped (ipv6 : ∀ p, e.route.dst = some p → p.bits = 0 → p = defaultDst6)
    (skipped : isIPv6Default e.route = false) (plain : e.plain = true) :
    viaMapped e.route = true := by
  have isDef := (Bool.and_eq_true_iff.mp plain).2
  have dst : e.route.dst.any (·.addr.unmap.is4) = false := by
    rw [Option.any_eq_false]
    intro p given
    rw [isDefault6, given] at isDef
    rw [ipv6 p given (by simpa using isDef)]
    decide
  rw [isDefault6] at isDef
  rw [isIPv6Default, dst, isDef, Bool.false_or, Bool.and_true, Bool.not_eq_false'] at skipped
  exact skipped

section Erased
variable {routes : List Route6}

theorem erased_plain (routes : List Route6) (r : NetlinkRoute) :
    (routes.eraseP (matchesEntry (ipv6Default r))).filter Route6.plain =
      (routes.filter Route6.plain).eraseP (matchesEntry (ipv6Default r)) := by
  induction routes with
  | nil => rfl
  | cons e rest ih =>
    by_cases matching : matchesEntry (ipv6Default r) e = true
    · rw [List.eraseP_cons_of_pos matching, List.filter_cons_of_pos (matches_plain matching),
        List.eraseP_cons_of_pos matching]
    · rw [List.eraseP_cons_of_neg matching]
      by_cases plain : e.plain = true
      · rw [List.filter_cons_of_pos plain, List.filter_cons_of_pos plain,
          List.eraseP_cons_of_neg matching, ih]
      · rw [List.filter_cons_of_neg plain, List.filter_cons_of_neg plain, ih]

theorem erased_others (routes : List Route6) (r : NetlinkRoute) :
    (routes.eraseP (matchesEntry (ipv6Default r))).filter (!·.plain) =
      routes.filter (!·.plain) := by
  induction routes with
  | nil => rfl
  | cons e rest ih =>
    by_cases matching : matchesEntry (ipv6Default r) e = true
    · rw [List.eraseP_cons_of_pos matching,
        List.filter_cons_of_neg (by simp [matches_plain matching])]
    · rw [List.eraseP_cons_of_neg matching, List.filter_cons, List.filter_cons, ih]

/-- Of the default routes that are left, the loop is past no more than `n`; the others it has
not come to. -/
def Scanned (routes : List Route6) (n : Nat) (rest : List Route6) : Prop :=
  ∃ passed ahead, routes.filter Route6.plain = passed ++ ahead ∧ passed.length ≤ n ∧
    ahead.Sublist (rest.filter Route6.plain)

theorem Scanned.of_other (scanned : Scanned routes n (e :: rest)) (other : ¬ e.plain = true) :
    Scanned routes n rest := by
  obtain ⟨passed, ahead, split, few, sub⟩ := scanned
  rw [List.filter_cons_of_neg other] at sub
  exact ⟨passed, ahead, split, few, sub⟩

theorem Scanned.skip (scanned : Scanned routes n (e :: rest)) : Scanned routes (n + 1) rest := by
  by_cases plain : e.plain = true
  · obtain ⟨passed, ahead, split, few, sub⟩ := scanned
    rw [List.filter_cons_of_pos plain] at sub
    cases sub with
    | cons _ sub => exact ⟨passed, ahead, split, by omega, sub⟩
    | cons_cons _ sub => exact
      ⟨passed ++ [e], _, by rw [split, List.append_assoc, List.singleton_append], by simpa, sub⟩
  · obtain ⟨passed, ahead, split, few, sub⟩ := scanned.of_other plain
    exact ⟨passed, ahead, split, by omega, sub⟩

/-- The delete takes the route, or another in its place that the loop is past, where it is
still there; else it may take any one. -/
theorem Scanned.delete (scanned : Scanned routes n (e :: rest))
    (own : e.plain = true → matchesEntry (ipv6Default e.route) e = true) :
    Scanned (routes.eraseP (matchesEntry (ipv6Default e.route))) n rest := by
  obtain ⟨passed, ahead, split, few, sub⟩ := scanned
  unfold Scanned
  rw [erased_plain, split, List.eraseP_append]
  have fewer := List.length_eraseP_le (l := passed) (p := matchesEntry (ipv6Default e.route))
  have here : ahead.Sublist (rest.filter Route6.plain) ∨
      ∃ later, ahead = e :: later ∧ e.plain = true ∧ later.Sublist (rest.filter Route6.plain) := by
    rw [List.filter_cons] at sub
    split at sub
    · cases sub with
      | cons _ sub => exact .inl sub
      | cons_cons _ sub => exact .inr ⟨_, rfl, ‹_›, sub⟩
    · exact .inl sub
  rcases here with sub | ⟨later, rfl, plain, sub⟩
  · split
    · exact ⟨_, _, rfl, by omega, sub⟩
    · exact ⟨_, _, rfl, few, (List.eraseP_sublist).trans sub⟩
  · split
    · rename_i found
      obtain ⟨other, member, matching⟩ := List.any_eq_true.mp found
      have one := List.length_eraseP_of_mem member matching
      refine ⟨passed.eraseP _ ++
        [e], later, by rw [List.append_assoc, List.singleton_append], ?_, sub⟩
      have some := List.length_pos_of_mem member
      rw [List.length_append, List.length_singleton, one]
      omega
    · exact ⟨passed, later, by rw [List.eraseP_cons_of_pos (own plain)], few, sub⟩

end Erased

/-- A default route that the pass does not ask for. -/
def Route6.skipped (e : Route6) : Bool := e.plain && viaMapped e.route

/-- The IPv6 table after a pass, finished or stopped anywhere: only default routes for
packets from anywhere are gone, of which at most `left` are left once it has finished. -/
structure Cleared (before after : Table6) (left : Nat) (finished : Prop) : Prop where
  fewer : after.routes.Sublist before.routes
  others : after.routes.filter (!·.plain) = before.routes.filter (!·.plain)
  gone : finished → after.routes.countP Route6.plain ≤ left

theorem cleared_stopped {finished : Prop} (t : Table6) (left : Nat) (stopped : ¬ finished) :
    Cleared t t left finished :=
  ⟨.refl _, rfl, fun done => absurd done stopped⟩

/-- What is cleared after a delete was cleared with it. -/
theorem Cleared.delete {before mid after : Table6} {finished : Prop}
    (cleared : Cleared mid after few finished) (r : NetlinkRoute) (more : few ≤ left)
    (erased : mid.routes = before.routes.eraseP (matchesEntry (ipv6Default r))) :
    Cleared before after left finished := by
  obtain ⟨fewer, others, gone⟩ := cleared
  rw [erased] at fewer others
  exact ⟨fewer.trans List.eraseP_sublist, others.trans (erased_others _ _),
    fun done => (gone done).trans more⟩

/-- The loop, from where it is past `n` of the default routes that are left. -/
theorem deleteEachIPv6_run (up : s.six.stack = true)
    (ipv6 : ∀ e ∈ rest, ∀ p, e.route.dst = some p → p.bits = 0 → p = defaultDst6)
    (scanned : Scanned s.six.routes n rest)
    (run : Trace dualEnv s (deleteEachIPv6 (rest.map Route6.route)) events outcome s') :
    Cleared s.six s'.six (n + rest.countP Route6.skipped) (outcome = .done ()) := by
  induction rest generalizing s n events with
  | nil =>
    cases run with
    | done =>
      obtain ⟨passed, ahead, split, few, sub⟩ := scanned
      obtain rfl := List.sublist_nil.mp sub
      refine ⟨.refl _, rfl, fun _ => ?_⟩
      rw [List.countP_eq_length_filter, split, List.append_nil]
      simpa using few
    | cut => exact cleared_stopped _ _ (by simp)
  | cons e rest ih =>
    have own := ipv6 e List.mem_cons_self
    replace ih := fun {s n events} up => @ih s n events up fun e member => ipv6 e
      (List.mem_cons_of_mem _ member)
    simp only [List.map_cons, deleteEachIPv6] at run
    by_cases asked : isIPv6Default e.route = true
    · rw [if_pos asked, ask_bind] at run
      rcases run.call_cases with ⟨-, rfl, rfl⟩ | ⟨answer, u, later, ⟨-, step⟩, after, -⟩
      · exact cleared_stopped _ _ (by simp)
      have next := scanned.delete (Route6.matches_self own)
      -- A delete that finds nothing changes the table as one that does.
      have goes : u.six.stack = true → u.six.routes = s.six.routes.eraseP
          (matchesEntry (ipv6Default e.route)) →
          Trace dualEnv u (deleteEachIPv6 (rest.map Route6.route)) later outcome s' →
          Cleared s.six s'.six (n + (e :: rest).countP Route6.skipped) (outcome = .done ()) := by
        intro still erased after
        refine (ih still (erased ▸ next) after).delete e.route ?_ erased
        exact Nat.add_le_add_left (List.Sublist.countP_le (List.sublist_cons_self e _)) n
      generalize six : u.six = t at step
      cases step with
      | delete found => exact goes (by rw [six]; exact up) (by rw [six]; rfl) after
      | gone absent =>
        exact goes (by rw [six, up]) (by rw [six, List.eraseP_of_forall_not absent]) after
      | deleteRefused down => simp [up] at down
      | deleteFails present fault =>
        dsimp only at after
        rw [if_neg (by simp [present, fault])] at after
        cases after with
        | fail | cut => exact six ▸ cleared_stopped _ _ (by simp)
    · rw [if_neg asked] at run
      have skipped := skipped_mapped own (by simpa using asked)
      by_cases plain : e.plain = true
      · have counted : e.skipped = true := by simp [Route6.skipped, plain, skipped plain]
        rw [List.countP_cons_of_pos counted, Nat.add_comm (List.countP _ rest), ← Nat.add_assoc]
        exact ih up scanned.skip run
      · rw [List.countP_cons_of_neg (by simp [Route6.skipped, plain])]
        exact ih up (scanned.of_other plain) run

/-- A kernel without an IPv6 stack has nothing to delete. -/
theorem six_down {program : Netlink α} {outcome : Outcome String α} (down : s.six.stack = false)
    (run : Trace dualEnv s program events outcome s') : s'.six = s.six := by
  have step : ∀ {u request answer v}, dualEnv u request answer v → u.six.stack = false →
      v.six = u.six := by
    rintro u request answer v ⟨-, step⟩ down
    generalize v.six = t at step
    cases step with
    | delete found =>
      obtain ⟨r, member, -⟩ := found
      rw [u.six.bare down] at member
      contradiction
    | _ => rfl
  refine run.frame (fun _ _ => rfl) (fun first second down => ?_) step down
  exact (second (by rw [first down, down])).trans (first down)

theorem deleteIPv6Defaults_run (run : Trace dualEnv s deleteIPv6Defaults events outcome s') :
    Cleared s.six s'.six (s.six.routes.countP Route6.skipped) (outcome = .done ()) := by
  by_cases up : s.six.stack = true
  · simp only [deleteIPv6Defaults, ask_bind] at run
    rcases run.call_cases with ⟨-, rfl, rfl⟩ | ⟨answer, u, _, ⟨-, step⟩, after, -⟩
    · exact cleared_stopped _ _ (by simp)
    generalize six : u.six = t at step
    cases step with
    | list _ =>
      have start : Scanned u.six.routes 0 s.six.routes := ⟨[], _, rfl, Nat.le_refl 0, six ▸ .refl _⟩
      have cleared := deleteEachIPv6_run (six ▸ up) s.six.ipv6 start after
      rw [six, Nat.zero_add] at cleared
      exact cleared
    | listAll down => simp [up] at down
    | listRefused down => simp [up] at down
    | listFails fault =>
      dsimp only at after
      rw [if_neg (by simp [fault])] at after
      cases after with
      | fail | cut => exact six ▸ cleared_stopped _ _ (by simp)
  · have down : s.six.stack = false := by simpa using up
    rw [six_down down run]
    refine ⟨.refl _, rfl, fun _ => ?_⟩
    rw [s.six.bare down]
    rfl

/-! The rest of a pass. -/

def OnIPv4 : NetlinkCall → Prop
  | .routeList .v6 | .routeDel .v6 _ => False
  | _ => True

theorem ipv4_step (ipv4 : OnIPv4 request) (step : dualEnv s request answer s') :
    s'.six = s.six := by
  obtain ⟨-, step⟩ := step
  generalize s'.six = t at step
  cases step with
  | list4 | replace4 | delete4 => rfl
  | list _ | listAll _ _ | listRefused _ _ | listFails _ => exact ipv4.elim
  | delete _ | gone _ | deleteRefused _ _ | deleteFails _ _ => exact ipv4.elim

theorem ipv4_run {program : Netlink α} {outcome : Outcome String α}
    (run : Trace dualEnv s program events outcome s')
    (safe : program.Safe (fun _ _ => True) OnIPv4 fun _ => True) : s'.six = s.six := by
  have step : ∀ {u request answer v}, OnIPv4 request → dualEnv u request answer v → u.six = s.six →
      True ∧ v.six = s.six := fun ipv4 step same => ⟨trivial, (ipv4_step ipv4 step).trans same⟩
  exact (run.safe safe step rfl).1

theorem replaceLocal_ipv4 (plan : RoutePlan) (ps : List Prefix) :
    (replaceLocal plan ps).Safe (fun _ _ => True) OnIPv4 fun _ => True := by
  induction ps with
  | nil => trivial
  | cons p rest ih =>
    refine ⟨trivial, fun answer _ => ?_⟩
    cases answer with
    | error e => trivial
    | ok => exact ih

theorem deleteStale_ipv4 (stale : List Route) :
    (deleteStale stale).Safe (fun _ _ => True) OnIPv4 fun _ => True := by
  induction stale with
  | nil => trivial
  | cons r rest ih =>
    refine ⟨trivial, fun answer _ => ?_⟩
    cases answer with
    | ok => exact ih
    | error e =>
      cases e with
      | esrch => exact ih
      | eopnotsupp | eafnosupport | other text => trivial

theorem replaceDefault_ipv4 (wgIndex : Nat) :
    (replaceDefault wgIndex).Safe (fun _ _ => True) OnIPv4 fun _ => True := by
  refine ⟨trivial, fun answer _ => ?_⟩
  cases answer <;> trivial

theorem applyPlan_eq (wgIndex : Nat) (plan : RoutePlan) : ∃ moves : Netlink Unit,
    applyPlan wgIndex plan = (moves >>= fun _ => deleteIPv6Defaults) ∧
      moves.Safe (fun _ _ => True) OnIPv4 fun _ => True := by
  refine ⟨do
    replaceLocal plan plan.localCIDRs
    replaceDefault wgIndex
    deleteStale plan.stale, ?_, ?_⟩
  · simp only [applyPlan, bind_assoc]
  · refine Safe.bind (replaceLocal_ipv4 plan _) fun _ _ => ?_
    exact Safe.bind (replaceDefault_ipv4 wgIndex) fun _ _ => deleteStale_ipv4 plan.stale

/-- However a pass over the routes ends, it has added no IPv6 route and deleted none but
default routes for packets from anywhere. When it returns, no more of these are left than
there were via an IPv4 address; whether or not a delete names one of several. -/
theorem ipv6_defaults_deleted
    (run : Trace dualEnv s (ensureRoutes wgIndex localCIDRs) events outcome s') :
    Cleared s.six s'.six (s.six.routes.countP Route6.skipped) (outcome = .done ()) := by
  simp only [ensureRoutes, ask_bind] at run
  rcases run.call_cases with ⟨-, rfl, rfl⟩ | ⟨answer, u, _, step, after, -⟩
  · exact cleared_stopped _ _ (by simp)
  have ipv4 : OnIPv4 (.routeList .v4) := trivial
  rw [← ipv4_step ipv4 step]
  cases answer with
  | error e =>
    cases after with
    | fail | cut => exact cleared_stopped _ _ (by simp)
  | ok listed =>
    dsimp only at after
    split at after
    · cases after with
      | fail | cut => exact cleared_stopped _ _ (by simp)
    · rename_i plan planned
      obtain ⟨moves, parts, ipv4⟩ := applyPlan_eq wgIndex plan
      rw [parts] at after
      rcases after.bind_cases with ⟨moved, rfl⟩ | ⟨e, moved, rfl⟩ | ⟨_, v, _, _, moved, deletes, -⟩
      · rw [ipv4_run moved ipv4]
        exact cleared_stopped _ _ (by simp)
      · rw [ipv4_run moved ipv4]
        exact cleared_stopped _ _ (by simp)
      · rw [← ipv4_run moved ipv4]
        exact deleteIPv6Defaults_run deletes

/-! Two default routes of one link and one metric, of which the first has no gateway, so that
its delete matches both. A third is for packets of one network only. -/

section Sample

def dualHandler : Handler NetlinkCall NetlinkAnswer DualTable := fun s request =>
  match request with
  | .routeList .v6 => (.ok (s.six.routes.map Route6.route), s)
  | .routeDel .v6 want =>
    if s.six.routes.any (matchesEntry want) then (.ok (), { s with six := s.six.delete want })
      else (.error .esrch, s)
  | .routeList .v4 => ((netlinkHandler s.main (.routeList .v4)).1, s)
  | .routeReplace r => ((netlinkHandler s.main (.routeReplace r)).1,
    { s with main := (netlinkHandler s.main (.routeReplace r)).2 })
  | .routeDel .v4 r =>
    ((netlinkHandler s.main (.routeDel .v4 r)).1,
      { s with main := (netlinkHandler s.main (.routeDel .v4 r)).2 })

theorem dualHandler_answers (s : DualTable) (request : NetlinkCall) :
    dualEnv s request (dualHandler s request).1 (dualHandler s request).2 := by
  have anyOrder : ∀ t : MainTable, AnyOrder t t.entries := fun t => List.Perm.refl t.entries
  have main := netlinkHandler_answers anyOrder s.main
  cases request with
  | routeList family =>
    cases family with
    | v4 => exact ⟨main (.routeList .v4), .list4⟩
    | v6 =>
      refine ⟨.list6 _, ?_⟩
      cases stack : s.six.stack with
      | true => exact .list stack
      | false => exact .listAll stack _
  | routeReplace r => exact ⟨main (.routeReplace r), .replace4⟩
  | routeDel family r =>
    cases family with
    | v4 => exact ⟨main (.routeDel .v4 r), .delete4⟩
    | v6 =>
      simp only [dualHandler]
      split
      · rename_i found
        exact ⟨.delete6 _ _, .delete (List.any_eq_true.mp found)⟩
      · rename_i absent
        exact ⟨.delete6 _ _, .gone (by simpa using absent)⟩

def linkRoute (dst : Option Prefix) (gw : Option Addr) (source : Option Prefix) : Route6 :=
  ⟨⟨dst, gw, 2, 1024, 0, scopeUniverse⟩, source⟩

def routerAddress : Addr := .v6 0xfe800000000000000000000000000001 ""

def podPrefix6 : Prefix := ⟨.v6 0xfd000000000000000000000000000000 "", 64, by decide⟩

def dualPod : DualTable where
  main := podTable
  six := {
    stack := true
    routes := [linkRoute none none none, linkRoute none (some routerAddress) none,
      linkRoute none (some routerAddress) (some podPrefix6), linkRoute (some podPrefix6) none none]
    bare := fun down => absurd down (by decide)
    ipv6 := by decide +kernel }

theorem dualPod_cleared : ∃ s' : DualTable, s'.six.routes.length = 2 ∧
    s'.six.routes.countP Route6.plain = 0 := by
  have run := play_trace dualHandler dualHandler_answers (ensureRoutes wg0 [serviceCIDR]) dualPod
  have returns : ((ensureRoutes wg0 [serviceCIDR]).play dualHandler dualPod).2.1 = .done () :=
    Outcome.value_eq_some.mp (by decide +kernel)
  rw [returns] at run
  have left := (ipv6_defaults_deleted run).gone rfl
  rw [show dualPod.six.routes.countP Route6.skipped = 0 from by decide +kernel] at left
  exact ⟨_, by decide +kernel, Nat.le_zero.mp left⟩

end Sample
end TunnelOperator.Sidecar
