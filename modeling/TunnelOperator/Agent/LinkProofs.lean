import TunnelOperator.Agent.LinkCalls
import Mathlib.Data.List.Nodup
import Mathlib.Tactic.Common

/-! What SyncLink, SyncAddress and syncRoute make of the network namespace. -/
namespace TunnelOperator.Agent
open Net Netip Program

variable {Cfg Dev : Type} {driver : Driver Cfg Dev} {n n' : NetNS Dev} {l : Link Dev}

/-- The call is about no link there is, and leaves the routes alone. -/
def quiet : NetCall Cfg → Bool
  | .system (.linkSetMTU ..) | .system (.linkSetUp _) | .system (.addrDel ..)
    | .system (.addrAdd ..)
  | .system (.configureDevice ..) | .system (.routeAdd _) => false
  | _ => true

theorem quiet_spec {request : NetCall Cfg} (silent : quiet request = true) :
    (∀ i name, ¬ Targets i name request) ∧ reroutes request = false := by
  rcases request with - | duration | call
  · exact ⟨fun _ _ target => target, rfl⟩
  · exact ⟨fun _ _ target => target, rfl⟩
  · cases call <;> simp_all [quiet, Targets, reroutes]

abbrev Quiet (program : NetProgram Cfg Dev α) : Prop :=
  program.Safe (fun _ _ => True) (fun request => quiet request = true) fun _ => True

theorem Quiet.run {program : NetProgram Cfg Dev α} {outcome : Outcome LinkError α}
    (safe : Quiet program) (run : Trace (netEnv driver) n program events outcome n') :
    Kept n n' ∧ n'.routes = n.routes := by
  have calls := (run.safe_of_expected safe fun _ => trivial).1
  constructor
  · intro i l there
    obtain ⟨l', here, -, same⟩ := run_links run there
    rw [here, same fun event member => (quiet_spec (calls event member)).1 i l.name]
  · exact run_routes run fun event member => (quiet_spec (calls event member)).2

theorem orMessage_quiet (text : String) (answer : Except SystemError α) :
    Quiet (orMessage text answer : NetProgram Cfg Dev α) := by
  cases answer <;> trivial

theorem pollLink_quiet (iface : String) (deadline rounds : Nat) :
    Quiet (pollLink iface deadline rounds : NetProgram Cfg Dev Unit) := by
  induction rounds with
  | zero => trivial
  | succ rounds ih =>
    refine ⟨rfl, fun answer _ => ?_⟩
    cases answer with
    | ok => trivial
    | error e =>
      refine ⟨rfl, fun now _ => ?_⟩
      simp only
      split
      · trivial
      · exact ⟨rfl, fun _ _ => ih⟩

theorem makeTun_quiet (found : Except SystemError Bool) :
    Quiet (makeTun found : NetProgram Cfg Dev _) := by
  rcases found with (text | text) | character
  · refine ⟨rfl, fun answer _ => ?_⟩
    cases answer <;> trivial
  · trivial
  · trivial

theorem createLinkUsingUserspaceImpl_quiet (iface implementation : String) :
    Quiet (createLinkUsingUserspaceImpl iface implementation : NetProgram Cfg Dev _) := by
  refine ⟨rfl, fun answer _ => ?_⟩
  cases answer with
  | error e => trivial
  | ok =>
    refine ⟨rfl, fun found _ => Safe.bind (makeTun_quiet found) fun problem _ => ?_⟩
    cases problem with
    | some => trivial
    | none =>
      refine ⟨rfl, fun answer _ => ?_⟩
      cases answer <;> trivial

theorem createLink_quiet (iface : String) (mtu : Nat) (implementation : String) :
    Quiet (createLink iface mtu implementation : NetProgram Cfg Dev _) := by
  refine ⟨rfl, fun answer _ => ?_⟩
  cases answer with
  | ok => trivial
  | error kernelErr =>
    refine Safe.bind (createLinkUsingUserspaceImpl_quiet iface implementation) fun problem _ => ?_
    cases problem with
    | some => trivial
    | none => exact ⟨rfl, fun start _ => pollLink_quiet iface _ _⟩

theorem findLink_quiet (iface : String) (mtu : Nat) (implementation : String) :
    Quiet (findLink iface mtu implementation : NetProgram Cfg Dev _) := by
  refine ⟨rfl, fun answer _ => ?_⟩
  rcases answer with (text | text) | link
  · exact Safe.bind (createLink_quiet iface mtu implementation) fun _ _ =>
      ⟨rfl, fun answer _ => orMessage_quiet _ answer⟩
  · trivial
  · trivial

theorem orMessage_done {env : Environment (NetCall Cfg) (NetAnswer Dev) (NetNS Dev)}
    {answer : Except SystemError α}
    (run : Trace env n (orMessage text answer : NetProgram Cfg Dev α) events (.done value) n') :
    answer = .ok value ∧ n' = n := by
  cases answer with
  | ok => cases run; exact ⟨rfl, rfl⟩
  | error => cases run

/-- The link found or made. One there was before is the one found, as it was. -/
theorem findLink_done (run : Trace (netEnv driver) n (findLink iface mtu implementation) events
    (.done link) n') :
    (∃ l, n'.links link.index = some l ∧ l.name = iface ∧ l.mtu = link.mtu) := by
  unfold findLink at run
  obtain ⟨answer, u, rest, step, after, rfl⟩ := run.call_returned
  rcases answer with (text | text) | found
  · obtain ⟨-, v, _, last, -, looked, rfl⟩ := after.bind_returned
    obtain ⟨answer, w, _, step, ended, rfl⟩ := looked.call_returned
    obtain ⟨rfl, rfl⟩ := orMessage_done ended
    exact linkByName_ok step
  · cases after
  · cases after
    exact linkByName_ok step

theorem setMTU_done (run : Trace (netEnv driver) n (setMTU iface mtu link) events (.done ()) n')
    (there : n.links link.index = some l) (known : l.mtu = link.mtu) :
    n'.links link.index = some { l with mtu := mtu } := by
  unfold setMTU at run
  split at run
  · rename_i already
    cases run
    rw [there, ← already, ← known]
  · obtain ⟨answer, u, rest, step, ended, rfl⟩ := run.call_returned
    obtain ⟨rfl, rfl⟩ := orMessage_done ended
    exact linkSetMTU_ok step there

/-- SyncLink leaves the link up, with its MTU, and otherwise as it was. -/
theorem syncLink_done (run : Trace (netEnv driver) n (syncLink iface mtu implementation) events
    (.done ()) n') :
    ∃ i l, n'.links i = some l ∧ l.name = iface ∧ l.mtu = mtu ∧ l.up = true ∧
      ∀ j old, n.links j = some old → old.name = iface → j = i ∧ l.addresses = old.addresses ∧
        l.device = old.device := by
  obtain ⟨link, u, _, _, finds, after, rfl⟩ := run.bind_returned
  obtain ⟨l, there, name, known⟩ := findLink_done finds
  obtain ⟨⟨⟩, v, _, _, sets, lifts, rfl⟩ := after.bind_returned
  obtain ⟨answer, w, _, step, ended, rfl⟩ := lifts.call_returned
  obtain ⟨rfl, rfl⟩ := orMessage_done ended
  refine ⟨link.index, _, linkSetUp_ok step (setMTU_done sets there known), name, rfl, rfl,
    fun j old before named => ?_⟩
  have kept := (Quiet.run (findLink_quiet _ _ _) finds).1 j old before
  obtain rfl := u.named kept there (named.trans name.symm)
  obtain rfl := Option.some.inj (kept.symm.trans there)
  exact ⟨rfl, rfl, rfl⟩

/-! The wait for a link that a userspace implementation makes. -/

theorem pollLink_round (run : Trace (netEnv driver) n (pollLink iface deadline (rounds + 1)) events
    (.fail .stuck) n') :
    ∃ u later, n.clock ≤ deadline ∧ n.clock + pollInterval ≤ u.clock ∧
      Trace (netEnv driver) u (pollLink iface deadline rounds) later (.fail .stuck) n' := by
  obtain ⟨answer, u, _, step, after, -⟩ := run.call_inv (by simp)
  have looked := (step_rest step).1
  cases answer with
  | ok => cases after
  | error e =>
    obtain ⟨now, v, _, ⟨m, path, told⟩, last, -⟩ := after.call_inv (by simp)
    have waited := (appeared_rest path).2
    cases told with
    | time later =>
      split at last
      · cases last
      · obtain ⟨⟨⟩, w, rest, ⟨m', path', slept⟩, again, -⟩ := last.call_inv (by simp)
        have same : m'.clock = now := (appeared_rest path').2
        cases slept with
        | slept awake =>
          refine ⟨_, rest, by omega, ?_, again⟩
          simp only
          omega

/-- The rounds are enough: each of them takes its time. -/
theorem pollLink_ends (rounds : Nat) (enough : deadline < n.clock + rounds * pollInterval) :
    ¬ Trace (netEnv driver) n (pollLink iface deadline (rounds + 1)) events (.fail .stuck) n' := by
  intro run
  induction rounds generalizing n events with
  | zero =>
    obtain ⟨u, later, early, -, -⟩ := pollLink_round run
    omega
  | succ rounds ih =>
    obtain ⟨u, later, -, slept, again⟩ := pollLink_round run
    refine ih ?_ again
    rw [Nat.succ_mul] at enough
    omega

theorem waitForLink_ends (timeout : Nat) :
    ¬ Trace (netEnv driver) n (waitForLink iface timeout) events (.fail .stuck) n' := by
  intro run
  obtain ⟨start, u, _, ⟨m, path, told⟩, after, -⟩ := run.call_inv (by simp)
  cases told with
  | time later =>
    refine pollLink_ends (timeout / pollInterval + 1) ?_ after
    have room := Nat.lt_div_mul_add (a := timeout) (show 0 < pollInterval by decide)
    rw [Nat.succ_mul]
    simp only
    omega

/-! SyncAddress. -/

theorem removeAddresses_done
    (run : Trace (netEnv driver) n (removeAddresses i ps) events (.done ()) n')
    (there : n.links i = some l) :
    ∃ l', n'.links i = some l' ∧ (∀ p, p ∈ l'.addresses ↔ p ∈ l.addresses ∧ p ∉ ps) ∧
      n'.routes.Sublist n.routes ∧
        (l.addresses ≠ [] → l'.addresses = [] → ∀ r ∈ n'.routes, r.linkIndex ≠ i) ∧
      l'.name = l.name ∧ l'.mtu = l.mtu ∧ l'.device = l.device := by
  induction ps generalizing n l events with
  | nil =>
    cases run
    exact ⟨l, there, by simp, .refl _, fun some none => absurd none some, rfl, rfl, rfl⟩
  | cons p rest ih =>
    obtain ⟨answer, u, _, step, after, -⟩ := run.call_returned
    cases answer with
    | error e => cases after
    | ok =>
      obtain ⟨here, forgets⟩ := addrDel_ok step there
      obtain ⟨l', last, left, fewer, emptied, same⟩ := ih after here
      refine ⟨l', last, fun q => ?_, fewer.trans forgets.fewer, fun _ none => ?_, same⟩
      · rw [left, Link.mem_without, List.mem_cons, not_or]
        tauto
      · -- The last address went with this call, or with a later one.
        by_cases gone : l.addresses.erase p = []
        · exact fun r member => forgets.last gone r (fewer.subset member)
        · exact emptied gone none

theorem addAddress_done (run : Trace (netEnv driver) n (addAddress i want add) events (.done ()) n')
    (there : n.links i = some l) : ∃ l', n'.links i = some l' ∧
      (∀ p, p ∈ l'.addresses ↔ (add = true ∧ p = want) ∨ p ∈ l.addresses) ∧ n'.routes = n.routes ∧
      l'.name = l.name ∧ l'.mtu = l.mtu ∧ l'.device = l.device := by
  unfold addAddress at run
  split at run
  · rename_i new
    obtain ⟨answer, u, _, step, ended, -⟩ := run.call_returned
    obtain ⟨rfl, rfl⟩ := orMessage_done ended
    obtain ⟨l', here, addresses, same⟩ := addrAdd_ok step there
    exact ⟨l', here, fun p => by rw [addresses, List.mem_cons]; simp [new], (step_rest step).2 rfl, same⟩
  · rename_i old
    cases run
    exact ⟨l, there, by simp [old], rfl, rfl, rfl, rfl⟩

theorem addressChanges_leave (order : listed.Perm xs) :
    ((addressChanges listed want).2 = true ∧ p = want ∨ p ∈ xs ∧ p ∉ (addressChanges listed want).1)
      ↔ p = want := by
  simp only [addressChanges, List.mem_filter, order.mem_iff, Bool.not_eq_true',
    List.contains_eq_mem, decide_eq_false_iff_not, decide_eq_true_eq]
  constructor
  · rintro (⟨-, same⟩ | ⟨there, kept⟩)
    · exact same
    · exact not_not.mp fun other => kept ⟨there, other⟩
  · rintro rfl
    by_cases there : p ∈ xs
    · exact .inr ⟨there, fun both => both.2 rfl⟩
    · exact .inl ⟨there, rfl⟩

/-- SyncAddress leaves the link up with the address wanted as its only one. No route of the
link outlives the addresses it had before. -/
theorem syncAddress_done
    (run : Trace (netEnv driver) n (syncAddress iface want) events (.done ()) n')
    (there : n.links i = some l) (name : l.name = iface) :
    ∃ l', n'.links i = some l' ∧ l'.addresses = [want] ∧
      l'.up = true ∧ l'.name = iface ∧ l'.mtu = l.mtu ∧ l'.device = l.device ∧
      (l.addresses ≠ [] → want ∉ l.addresses → ∀ r ∈ n'.routes, r.linkIndex ≠ i) := by
  obtain ⟨answer, u, _, step, after, -⟩ := run.call_returned
  cases answer with
  | error e => cases after
  | ok link =>
    obtain ⟨found, here, named, -⟩ := linkByName_ok step
    obtain ⟨kept, still, -, same⟩ := step_links step there
    obtain rfl := same id
    obtain rfl := u.named here still (named.trans name.symm)
    obtain ⟨answer, v, _, listing, after, -⟩ := after.call_returned
    cases answer with
    | error e => cases after
    | ok listed =>
      obtain ⟨there, order⟩ := addrList_ok listing still
      obtain ⟨⟨⟩, w, _, _, removes, after, -⟩ := after.bind_returned
      obtain ⟨l₁, there, left, -, emptied, name₁, mtu₁, device₁⟩ :=
        removeAddresses_done removes there
      obtain ⟨⟨⟩, x, _, _, adds, lifts, -⟩ := after.bind_returned
      obtain ⟨l₂, there, held, routes, name₂, mtu₂, device₂⟩ := addAddress_done adds there
      obtain ⟨answer, y, _, step, ended, -⟩ := lifts.call_returned
      obtain ⟨rfl, rfl⟩ := orMessage_done ended
      have lifted := (step_rest step).2 rfl
      refine ⟨_, linkSetUp_ok step there, ?_, rfl, name₂.trans (name₁.trans name), mtu₂.trans mtu₁,
        device₂.trans device₁, fun some other => ?_⟩
      · have only : ∀ p, p ∈ l₂.addresses ↔ p ∈ [want] := fun p => by
          rw [held, left, addressChanges_leave order, List.mem_singleton]
        exact List.perm_singleton.mp
          ((List.perm_ext_iff_of_nodup l₂.distinct (List.nodup_singleton _)).mpr only)
      · have none : l₁.addresses = [] := by
          refine List.eq_nil_iff_forall_not_mem.mpr fun p member => ?_
          obtain ⟨old, kept⟩ := (left p).mp member
          have apart : p ≠ want := fun same => other (same ▸ old)
          exact kept (List.mem_filter.mpr ⟨order.mem_iff.mpr old, by simpa using apart⟩)
        rw [lifted, routes]
        exact emptied some none

/-! syncRoute. -/

/-- What syncRoute makes of the routes: a link with a route keeps what it has, and a link
without any gets the one asked for. -/
inductive Routed (iface cidr : String) (gw : Addr) (n n' : NetNS Dev) : Prop where
  | there {link : Link Dev} (named : n'.links i = some link) (name : link.name = iface)
      (some : ∃ r ∈ n.routes, r.linkIndex = i) (same : n'.routes = n.routes)
  | added {link : Link Dev} (named : n'.links i = some link) (name : link.name = iface)
      (none : ∀ r ∈ n.routes, r.linkIndex ≠ i) (parsed : parseCIDR cidr = .ok dst)
      (new : n'.routes = n.routes ++ [⟨i, dst, gw⟩])

theorem routeAdd_run {outcome : Outcome LinkError Unit} (run : Trace (netEnv driver) n
      (.call (.system (.routeAdd route)) (orMessage text)) events outcome n') :
    Kept n n' ∧ (n'.routes = n.routes ++ [route] ∨ n'.routes = n.routes ∧ outcome ≠ .done ()) := by
  rcases run.call_cases with ⟨-, rfl, rfl⟩ | ⟨answer, u, _, step, ended, -⟩
  · exact ⟨fun _ _ => id, .inr ⟨rfl, by simp⟩⟩
  obtain ⟨keeps, same⟩ := (orMessage_quiet text answer).run ended
  refine ⟨(step_kept step fun _ _ => id).trans keeps, ?_⟩
  obtain ⟨m, path, answered⟩ := step
  have routes := (appeared_rest path).1
  cases answered with
  | routeAdded free => exact .inl (same.trans (congrArg (· ++ [route]) routes))
  | failed e =>
    refine .inr ⟨same.trans routes, ?_⟩
    rintro rfl
    cases ended

theorem chooseRoute_run {outcome : Outcome LinkError Unit}
    (run : Trace (netEnv driver) n (chooseRoute cidr gw i listed) events outcome n')
    (there : n.links i = some l) (name : l.name = iface)
    (order : listed.Perm (n.routes.filter (·.linkIndex = i))) :
    Kept n n' ∧ (Routed iface cidr gw n n' ∨ n'.routes = n.routes ∧ outcome ≠ .done ()) := by
  have any : listed.any (·.linkIndex = i) = true ↔ ∃ r ∈ n.routes, r.linkIndex = i := by
    simp [order.mem_iff]
  unfold chooseRoute at run
  split at run
  · rename_i some
    cases run with
    | done => exact ⟨fun _ _ => id, .inl (.there there name (any.mp some) rfl)⟩
    | cut => exact ⟨fun _ _ => id, .inr ⟨rfl, by simp⟩⟩
  · rename_i none
    have free : ∀ r ∈ n.routes, r.linkIndex ≠ i :=
      fun r member same => none (any.mpr ⟨r, member, same⟩)
    cases parsed : parseCIDR cidr with
    | error e =>
      simp only [parsed] at run
      cases run with
      | fail | cut => exact ⟨fun _ _ => id, .inr ⟨rfl, by simp⟩⟩
    | ok dst =>
      simp only [parsed] at run
      obtain ⟨kept, routes⟩ := routeAdd_run run
      exact ⟨kept, routes.imp (fun new => .added (kept i l there) name free parsed new) id⟩

theorem Routed.of_same {n₀ : NetNS Dev} (routed : Routed iface cidr gw n n')
    (same : n.routes = n₀.routes) :
    Routed iface cidr gw n₀ n' := by
  cases routed with
  | there named name some unchanged => exact .there named name (same ▸ some) (unchanged.trans same)
  | added named name none parsed new => exact .added named name (same ▸ none) parsed (same ▸ new)

theorem syncRoute_run {outcome : Outcome LinkError Unit}
    (run : Trace (netEnv driver) n (syncRoute iface cidr gw) events outcome n') :
    Kept n n' ∧ (Routed iface cidr gw n n' ∨ n'.routes = n.routes ∧ outcome ≠ .done ()) := by
  rcases run.call_cases with ⟨-, rfl, rfl⟩ | ⟨answer, u, _, step, after, -⟩
  · exact ⟨fun _ _ => id, .inr ⟨rfl, by simp⟩⟩
  have first : Kept n u := step_kept step fun _ _ => id
  have routes : u.routes = n.routes := (step_rest step).2 rfl
  cases answer with
  | error e =>
    cases after with
    | fail | cut => exact ⟨first, .inr ⟨routes, by simp⟩⟩
  | ok link =>
    obtain ⟨l, there, name, -⟩ := linkByName_ok step
    rcases after.call_cases with ⟨-, rfl, rfl⟩ | ⟨answer, v, _, listing, after, -⟩
    · exact ⟨first, .inr ⟨routes, by simp⟩⟩
    have second : Kept u v := step_kept listing fun _ _ => id
    have same : v.routes = n.routes := ((step_rest listing).2 rfl).trans routes
    cases answer with
    | error e =>
      cases after with
      | fail | cut => exact ⟨first.trans second, .inr ⟨same, by simp⟩⟩
    | ok listed =>
      obtain ⟨unchanged, order⟩ := routeList_ok listing
      obtain ⟨third, result⟩ :=
        chooseRoute_run after (second _ l there) name (unchanged.symm ▸ order)
      refine ⟨(first.trans second).trans third, ?_⟩
      exact result.imp (fun routed => routed.of_same same) fun ⟨last, open_⟩ =>
        ⟨last.trans same, open_⟩

end TunnelOperator.Agent
