import TunnelOperator.Agent.LinkFrame
import TunnelOperator.Sidecar.Apply
import TunnelOperator.Sidecar.Routing

/-! What a pass of the client leaves behind, wherever it stops. -/
namespace TunnelOperator.Sidecar
open Netip Net Program
open Agent (SystemError NetCall NetAnswer LinkError NetProgram NetNS Link Owned HoldsOnly netEnv)

variable {s s' : PodNet} {key : Wgtypes.Key} {t : Tunnel} {l : Link Device}

/-! Parts of a pass. -/

abbrev NetEvents := List (Event (NetCall WgtypesConfig) (NetAnswer Device))

/-- What system calls make of the main table: they add nothing to it, and take only routes of
links whose addresses they delete. -/
structure TableKept (events : NetEvents) (table table' : MainTable) : Prop where
  fewer : table'.entries.Sublist table.entries
  others : r ∈ table.entries → (∀ p, ∀ event ∈ events, event.1 ≠ .system (.addrDel r.linkIndex p)) →
    r ∈ table'.entries
  same : (∀ event ∈ events, Agent.reroutes event.1 = false) → table' = table

theorem TableKept.call (step : TableAfter s s' request answer)
    (later : TableKept events s'.table table) :
    TableKept (⟨request, answer⟩ :: events) s.table table := by
  unfold TableAfter at step
  split at step
  · refine ⟨later.fewer.trans step.fewer, fun member apart => ?_, fun still => ?_⟩
    · obtain ⟨first, rest⟩ : _ ∧ _ := ⟨fun p => (List.forall_mem_cons.mp (apart p)).1,
        fun p => (List.forall_mem_cons.mp (apart p)).2⟩
      refine later.others (step.others member fun same => ?_) rest
      subst same
      exact first _ rfl
    · have moves := (List.forall_mem_cons.mp still).1
      contradiction
  · rw [← step]
    exact ⟨later.fewer, fun member apart => later.others member fun p =>
      (List.forall_mem_cons.mp (apart p)).2,
      fun still => later.same (List.forall_mem_cons.mp still).2⟩

theorem onLink_run {program : NetProgram WgtypesConfig Device α} {outcome : Outcome LinkError α}
    (run : Trace podEnv s (onLink text program) events outcome s') :
    ∃ inner result, Trace (netEnv podDriver) s.ns program inner result s'.ns ∧
      TableKept inner s.table s'.table ∧
      ∀ value, outcome = .done value → result = .done value := by
  obtain ⟨inner, result, ran, kept, ends⟩ := run.attempted_then (netEnv podDriver) PodNet.ns
    (fun events s s' => TableKept events s.table s'.table)
    (fun s => ⟨.refl _, fun member _ => member, fun _ => rfl⟩)
    (fun step => ⟨step.1, TableKept.call step.2⟩) fun given _ _ _ _ run => by
      cases given <;> cases run <;> rfl
  refine ⟨inner, result, ran, kept, fun value returned => ?_⟩
  obtain ⟨given, later, after, ⟨a, rfl, rfl⟩ | ⟨e, rfl, -⟩⟩ := ends value returned
  · cases after
    rfl
  · cases after

theorem owned_step (step : podEnv s request answer s') (owned : Owned s.ns iface i) :
    Owned s'.ns iface i := by
  cases request with
  | net request => exact Owned.stays step.1 owned
  | routes request =>
    rw [step.2]
    exact owned

theorem owned_lasts {program : PodProgram α} {outcome : Outcome LinkError α}
    (run : Trace podEnv s program events outcome s')
    (owned : Owned s.ns iface i) : Owned s'.ns iface i := by
  induction run with
  | done | fail | cut => exact owned
  | call step rest ih => exact ih (owned_step step owned)

/-- What becomes of the main table before the routes move: routes of wg0 may go when its
address changes, and nothing else does. -/
structure Thinned (before after : NetNS Device) (want : Prefix) (table table' : MainTable) :
    Prop where
  fewer : table'.entries.Sublist table.entries
  others : r ∈ table.entries → ¬ Owned after Resources.wgInterface r.linkIndex → r ∈ table'.entries
  same : HoldsOnly before Resources.wgInterface want i → table' = table

theorem Thinned.of_same (same : table' = table) : Thinned before after want table table' := by
  subst same
  exact ⟨.refl _, fun member _ => member, fun _ => rfl⟩

theorem Thinned.later {after' : NetNS Device} (thinned : Thinned before after want table table')
    (lasts : ∀ i, Owned after Resources.wgInterface i → Owned after' Resources.wgInterface i) :
    Thinned before after' want table table' :=
  ⟨thinned.fewer, fun member other => thinned.others member fun owned => other (lasts _ owned),
    thinned.same⟩

theorem linkStage_run {outcome : Outcome LinkError Unit}
    (run : Trace podEnv s (onLink text (Agent.syncLink Resources.wgInterface mtu implementation))
      events outcome s') :
    s'.table = s.table ∧
      ∀ i want, HoldsOnly s.ns Resources.wgInterface want i →
        HoldsOnly s'.ns Resources.wgInterface want i := by
  obtain ⟨inner, result, ran, kept, -⟩ := onLink_run run
  constructor
  · have calls := (ran.safe_of_expected (Agent.syncLink_spares _ _ _) fun _ => trivial).1
    exact kept.same fun event member => (calls event member).keeps
  · exact fun i want holds => (holds.run ran (Agent.syncLink_spares _ _ _)).1

theorem addressStage_run {outcome : Outcome LinkError Unit}
    (run : Trace podEnv s (onLink text (Agent.syncAddress Resources.wgInterface want)) events
      outcome s') :
    Thinned s.ns s'.ns want s.table s'.table := by
  obtain ⟨inner, result, ran, kept, -⟩ := onLink_run run
  have calls := Agent.own_calls ran (Agent.syncAddress_own want)
  refine ⟨kept.fewer, fun member other => kept.others member fun p event among same => other ?_,
    fun holds => ?_⟩
  · have own := calls event among
    rw [same] at own
    exact own.1
  · exact kept.same (holds.run ran Agent.syncAddress_spares).2

/-- The part of a pass that moves the routes to the link of this index: it may have stopped
anywhere, unless the pass finished. -/
def Moved (i : Nat) (t : Tunnel) (finished : Prop) (table table' : MainTable) : Prop :=
  ∃ events outcome, Trace (Kernel AnyOrder) table
    (ensureRoutes i t.localCIDRs) events outcome table' ∧
    (finished → outcome = .done ())

theorem Moved.weaken {finished finished' : Prop} (moved : Moved i t finished table table')
    (sub : finished' → finished) :
    Moved i t finished' table table' := by
  obtain ⟨events, outcome, run, done⟩ := moved
  exact ⟨events, outcome, run, done ∘ sub⟩

theorem unmoved {finished : Prop} (i : Nat) (t : Tunnel) (table : MainTable)
    (stopped : ¬ finished) :
    Moved i t finished table table :=
  ⟨[], .cut, .cut, fun done => absurd done stopped⟩

section Parts
variable {outcome : Outcome LinkError (Except LinkError Unit)}

theorem moveRoutes_run (run : Trace podEnv s (moveRoutes t i) events outcome s') :
    s'.ns = s.ns ∧ Moved i t (outcome = .done (.ok ())) s.table s'.table := by
  obtain ⟨inner, result, ran, same, ends⟩ := run.attempted_then (Kernel AnyOrder) PodNet.table
    (fun _ s s' => s'.ns = s.ns) (fun _ => rfl)
    (fun step => ⟨step.1, fun later => later.trans step.2⟩)
    fun given _ _ _ _ run => by cases given <;> cases run <;> rfl
  refine ⟨same, inner, result, ran, fun returned => ?_⟩
  obtain ⟨given, later, after, ⟨a, -, rfl⟩ | ⟨e, rfl, -⟩⟩ := ends _ returned
  · rfl
  · cases after

theorem routeTunnel_run (run : Trace podEnv s (routeTunnel t) events outcome s')
    (there : s.ns.links i = some l) (name : l.name = Resources.wgInterface) :
    s'.ns.links i = some l ∧ Moved i t (outcome = .done (.ok ())) s.table s'.table := by
  rcases run.call_cases with ⟨-, rfl, rfl⟩ | ⟨answer, u, _, ⟨step, same⟩, after, -⟩
  · exact ⟨there, unmoved i t _ (by simp)⟩
  have here := Agent.step_kept step (fun _ _ => id) i l there
  cases answer with
  | error e =>
    rw [← same]
    cases after with
    | done | cut => exact ⟨here, unmoved i t _ (by simp)⟩
  | ok link =>
    obtain ⟨found, at_, named, -⟩ := Agent.linkByName_ok step
    obtain rfl := u.ns.named at_ here (named.trans name.symm)
    obtain ⟨still, moved⟩ := moveRoutes_run after
    rw [still, ← same]
    exact ⟨here, moved⟩

/-- The link with the device of the tunnel. -/
structure Tunnelled (key : Wgtypes.Key) (t : Tunnel) (l l' : Link Device) : Prop where
  name : l'.name = l.name
  mtu : l'.mtu = l.mtu
  up : l'.up = l.up
  addresses : l'.addresses = l.addresses
  device : deviceMatches (some l'.device) key t allowed = true

theorem unchanged_matches (unchanged : (deviceConfig dev key t).2 = false) :
    deviceMatches dev key t allowed = true := by
  unfold deviceConfig at unchanged
  split at unchanged
  · assumption
  · contradiction

theorem configureTunnel_run
    (run : Trace podEnv s (configureTunnel key t l.device) events outcome s')
    (ipv4 : t.endpoint.addr = .v4 bits) (fits : t.endpoint.port < 2 ^ 16)
    (there : s.ns.links i = some l)
    (name : l.name = Resources.wgInterface) : s'.table = s.table ∧ outcome ≠ .done (.ok ()) ∨
      ∃ l', s'.ns.links i = some l' ∧ Tunnelled key t l l' ∧
        Moved i t (outcome = .done (.ok ())) s.table s'.table := by
  unfold configureTunnel at run
  split at run
  · rename_i changed
    rcases run.call_cases with ⟨-, rfl, rfl⟩ | ⟨answer, u, _, ⟨step, same⟩, after, -⟩
    · exact .inl ⟨rfl, by simp⟩
    cases answer with
    | error e =>
      cases after with
      | done | cut => exact .inl ⟨same, by simp⟩
    | ok =>
      obtain ⟨dev, configures, here⟩ := Agent.configureDevice_ok step there name
      obtain ⟨still, moved⟩ := routeTunnel_run after here name
      rw [same] at moved
      have device := unchanged_matches (deviceMatches_configured ipv4 fits changed configures)
      exact .inr ⟨_, still, ⟨rfl, rfl, rfl, rfl, device⟩, moved⟩
  · rename_i unchanged
    obtain ⟨still, moved⟩ := routeTunnel_run run there name
    have device := unchanged_matches (Bool.eq_false_of_not_eq_true unchanged)
    exact .inr ⟨l, still, ⟨rfl, rfl, rfl, rfl, device⟩, moved⟩

theorem serveTunnel_run (run : Trace podEnv s (serveTunnel key t) events outcome s')
    (ipv4 : t.endpoint.addr = .v4 bits) (fits : t.endpoint.port < 2 ^ 16)
    (there : s.ns.links i = some l)
    (name : l.name = Resources.wgInterface) : s'.table = s.table ∧ outcome ≠ .done (.ok ()) ∨
      ∃ l', s'.ns.links i = some l' ∧ Tunnelled key t l l' ∧
        Moved i t (outcome = .done (.ok ())) s.table s'.table := by
  rcases run.call_cases with ⟨-, rfl, rfl⟩ | ⟨answer, u, _, ⟨step, same⟩, after, -⟩
  · exact .inl ⟨rfl, by simp⟩
  cases answer with
  | error e =>
    cases after with
    | done | cut => exact .inl ⟨same, by simp⟩
  | ok dev =>
    obtain ⟨rfl, here⟩ := Agent.device_ok step there name
    rw [← same]
    exact configureTunnel_run after ipv4 fits here name

end Parts

/-! A whole pass. -/

/-- The link that carries the tunnel. -/
structure Carried (key : Wgtypes.Key) (t : Tunnel) (n : NetNS Device) (i : Nat) (l : Link Device) :
    Prop where
  there : n.links i = some l
  name : l.name = Resources.wgInterface
  mtu : l.mtu = Resources.tunnelMTU
  up : l.up = true
  address : l.addresses = [t.address]
  device : deviceMatches (some l.device) key t allowed = true

theorem close_run {outcome : Outcome LinkError Unit}
    (run : Trace podEnv s (.call (.net (.system .closeWgctrl)) (closed result)) events outcome s') :
    s'.table = s.table ∧ Agent.Kept s.ns s'.ns ∧ (outcome = .done () → result = .ok ()) := by
  rcases run.call_cases with ⟨-, rfl, rfl⟩ | ⟨answer, u, _, ⟨step, same⟩, after, -⟩
  · exact ⟨rfl, fun _ _ => id, by simp⟩
  have kept := Agent.step_kept step fun _ _ => id
  cases result with
  | ok => cases answer <;> cases after <;> exact ⟨same, kept, fun _ => rfl⟩
  | error e => cases answer <;> cases after <;> exact ⟨same, kept, by simp⟩

/-- The part of a pass after its link and address are in place. -/
theorem tunnelStage_run {outcome : Outcome LinkError Unit}
    (run : Trace podEnv s (.call (.net (.system .openWgctrl)) fun
      | .error e => .fail (.message ("open wgctrl client: " ++ e.text))
      | .ok _ => do
        let result ← serveTunnel key t
        .call (.net (.system .closeWgctrl)) (closed result)) events outcome s')
    (ipv4 : t.endpoint.addr = .v4 bits) (fits : t.endpoint.port < 2 ^ 16)
    (there : s.ns.links i = some l)
    (name : l.name = Resources.wgInterface) : s'.table = s.table ∧ outcome ≠ .done () ∨
      ∃ l', s'.ns.links i = some l' ∧ Tunnelled key t l l' ∧
        Moved i t (outcome = .done ()) s.table s'.table := by
  rcases run.call_cases with ⟨-, rfl, rfl⟩ | ⟨answer, w, _, ⟨opens, same⟩, after, -⟩
  · exact .inl ⟨rfl, by simp⟩
  rw [← show w.table = s.table from same]
  cases answer with
  | error e =>
    cases after with
    | fail | cut => exact .inl ⟨rfl, by simp⟩
  | ok =>
    have there := Agent.step_kept opens (fun _ _ => id) i l there
    rcases after.bind_cases with ⟨third, rfl⟩ | ⟨e, third, rfl⟩ | ⟨result, x, _, _, third, after, -⟩
    · rcases serveTunnel_run third ipv4 fits there name with ⟨same, -⟩
        | ⟨l', here, tunnelled, moved⟩
      · exact .inl ⟨same, by simp⟩
      · exact .inr ⟨l', here, tunnelled, moved.weaken (by simp)⟩
    · rcases serveTunnel_run third ipv4 fits there name with ⟨same, -⟩
        | ⟨l', here, tunnelled, moved⟩
      · exact .inl ⟨same, by simp⟩
      · exact .inr ⟨l', here, tunnelled, moved.weaken (by simp)⟩
    obtain ⟨same, kept, finishes⟩ := close_run after
    rw [same]
    rcases serveTunnel_run third ipv4 fits there name with ⟨same, unfinished⟩
      | ⟨l', here, tunnelled, moved⟩
    · exact .inl ⟨same, fun done => unfinished (finishes done ▸ rfl)⟩
    · exact .inr ⟨l', kept i l' here, tunnelled, moved.weaken fun done => finishes done ▸ rfl⟩

/-- A pass leaves the main table alone, but for routes that go with an old address, until
the link carries the tunnel. -/
theorem apply_run {outcome : Outcome LinkError Unit}
    (run : Trace podEnv s (apply key t) events outcome s')
    (ipv4 : t.endpoint.addr = .v4 bits) (fits : t.endpoint.port < 2 ^ 16) :
    Thinned s.ns s'.ns t.address s.table s'.table ∧ outcome ≠ .done () ∨
      ∃ i l, Carried key t s'.ns i l ∧ ∃ mid, Thinned s.ns s'.ns t.address s.table mid ∧
        Moved i t (outcome = .done ()) mid s'.table := by
  rcases run.bind_cases with ⟨first, rfl⟩ | ⟨e, first, rfl⟩ | ⟨_, u, _, _, first, after, -⟩
  · exact .inl ⟨.of_same (linkStage_run first).1, by simp⟩
  · exact .inl ⟨.of_same (linkStage_run first).1, by simp⟩
  obtain ⟨same, holds⟩ := linkStage_run first
  obtain ⟨_, result, links, -, done⟩ := onLink_run first
  obtain rfl := done _ rfl
  obtain ⟨i, l, there, name, mtu, -, -⟩ := Agent.syncLink_done links
  have thins : ∀ {text events outcome v},
      Trace podEnv u (onLink text (Agent.syncAddress Resources.wgInterface t.address))
      events outcome v → Thinned s.ns v.ns t.address s.table v.table := by
    intro text events outcome v second
    obtain ⟨fewer, others, unchanged⟩ := addressStage_run second
    rw [same] at fewer others unchanged
    exact ⟨fewer, others, fun held => unchanged (holds _ _ held)⟩
  rcases after.bind_cases with ⟨second, rfl⟩ | ⟨e, second, rfl⟩ | ⟨_, v, _, _, second, after, -⟩
  · exact .inl ⟨thins second, by simp⟩
  · exact .inl ⟨thins second, by simp⟩
  have thinned := (thins second).later fun _ => owned_lasts after
  obtain ⟨_, result, addresses, -, done⟩ := onLink_run second
  obtain rfl := done _ rfl
  obtain ⟨l, there, only, up, name, mtu', -, -⟩ := Agent.syncAddress_done addresses there name
  rcases tunnelStage_run after ipv4 fits there name with ⟨same, unfinished⟩
    | ⟨l', here, tunnelled, moved⟩
  · exact .inl ⟨same ▸ thinned, unfinished⟩
  · refine .inr ⟨i, l', ⟨here, tunnelled.name.trans name, tunnelled.mtu.trans (mtu'.trans mtu),
      tunnelled.up.trans up, tunnelled.addresses.trans only, tunnelled.device⟩, _, thinned, moved⟩

end TunnelOperator.Sidecar
