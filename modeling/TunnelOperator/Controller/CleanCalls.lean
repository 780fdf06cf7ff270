import TunnelOperator.Controller.Outcomes

/-! A pass in which nothing fails: every call is answered as the stored objects have it,
and the pass runs to its end. -/
namespace TunnelOperator.Controller
open Program Resources

/-- No call fails for a cause outside the stored objects. -/
def NoFault (_ : Call) : Prop := False

theorem reliable_noFault : Reliable NoFault := fun _ => id

/-- The Service as the apiserver returns it. -/
def assigned (c : Cluster) (wg : Wireguard) : Service :=
  { serviceForWireguard wg with
    clusterIP := c.clusterIPs ⟨(serviceForWireguard wg).nameSpace, (serviceForWireguard wg).name⟩ }

/-- No Secret that spec.gluetun.envFrom names sets a variable the operator renders. -/
def EnvClear (c : Cluster) (wg : Wireguard) (sources : List EnvFromSource) : Prop :=
  ∀ src ∈ sources, ∀ name, src.secretRef = some name → ∀ secret, c.secrets ⟨wg.nameSpace, name⟩ =
    some secret →
    reservedInKeys src.namePrefix secret.data.keys = ""

/-- The operator can render the Wireguard. -/
structure Rendering (req : NamespacedName) (wg : Wireguard) (c : Cluster) : Prop where
  stored : c.wireguards req = some wg
  spec : staticProblem wg = none
  env : EnvClear c wg wg.spec.gluetun.envFrom
  inside : clusterIPOutside (assigned c wg).name
    (assigned c wg).clusterIP wg.spec.localCIDRs = .ok ()

/-- And its first pass, which only writes the status, is over. -/
structure Renderable (req : NamespacedName) (wg : Wireguard) (c : Cluster) : Prop
    extends Rendering req wg c where
  started : wg.status.status ≠ ""

/-- The peer status writes among the calls of a pass. -/
def peerWrites (events : List (Event Call Answer)) : List WireguardPeer :=
  events.filterMap fun event => match event.1 with
    | .updatePeerStatus write => some write
    | _ => none

@[simp] theorem peerWrites_append (first second : List (Event Call Answer)) :
    peerWrites (first ++ second) = peerWrites first ++ peerWrites second :=
  List.filterMap_append

@[simp] theorem peerWrites_landed (writes : List WireguardPeer) :
    peerWrites (writes.map landed) = writes := by
  induction writes with
  | nil => rfl
  | cons write rest ih => exact congrArg (write :: ·) ih

theorem peerWrites_quiet {events : List (Event Call Answer)}
    (quiet : ∀ event ∈ events, Quiet event.1) :
    peerWrites events = [] := by
  apply List.filterMap_eq_nil_iff.mpr
  intro event member
  split
  · rename_i write writes
    have silent := quiet event member
    rw [writes] at silent
    exact silent.elim
  · rfl

section Calls
variable {c d e : Cluster}

/-- A call that the stored objects do not refuse succeeds. -/
theorem clean_ok (possible : ∀ e, ¬ Refuses c request e)
    (answered : clusterEnv NoFault c request answer d) :
    ∃ reply, answer = .ok reply ∧ Serves c request reply d := by
  cases answer with
  | ok reply => exact ⟨reply, rfl, answered⟩
  | error e =>
    rcases answered with ⟨refused, -⟩ | ⟨fault, -⟩
    · exact absurd refused (possible e)
    · exact fault.elim

theorem call_clean {next : Answer request → Reconciler α} {outcome : Outcome ApiError α}
    (run : Trace (clusterEnv NoFault) c (.call request next) events outcome e)
    (whole : outcome ≠ .cut)
    (possible : ∀ e, ¬ Refuses c request e) :
    ∃ reply d rest, Serves c request reply d ∧
      Trace (clusterEnv NoFault) d (next (.ok reply)) rest outcome e ∧
      events = ⟨request, .ok reply⟩ :: rest := by
  obtain ⟨answer, d, rest, answered, after, rfl⟩ := run.call_inv whole
  obtain ⟨reply, rfl, served⟩ := clean_ok possible answered
  exact ⟨reply, d, rest, served, after, rfl⟩

theorem demand_clean {next : Reply request → Reconciler α} {outcome : Outcome ApiError α}
    (run : Trace (clusterEnv NoFault) c (demand request >>= next) events outcome e)
    (whole : outcome ≠ .cut)
    (possible : ∀ e, ¬ Refuses c request e) :
    ∃ reply d rest, Serves c request reply d ∧
      Trace (clusterEnv NoFault) d (next reply) rest outcome e ∧
      events = ⟨request, .ok reply⟩ :: rest := by
  simp only [demand, ask_bind, call_bind] at run
  exact call_clean run whole possible

theorem getWireguard_clean {next : Answer (.getWireguard key) → Reconciler α}
    {outcome : Outcome ApiError α}
    (run : Trace (clusterEnv NoFault) c (.call (.getWireguard key) next) events outcome e)
    (whole : outcome ≠ .cut) (stored : c.wireguards key = some wg) :
    ∃ rest, Trace (clusterEnv NoFault) c (next (.ok wg)) rest outcome e ∧
      events = ⟨.getWireguard key, .ok wg⟩ :: rest := by
  have possible : ∀ e, ¬ Refuses c (.getWireguard key) e := by
    intro e refused
    cases refused with
    | getWireguard missing _ =>
      rw [stored] at missing
      contradiction
  obtain ⟨reply, d, rest, served, after, rfl⟩ := call_clean run whole possible
  cases served with
  | getWireguard stored' =>
    obtain rfl := Option.some.inj (stored.symm.trans stored')
    exact ⟨rest, after, rfl⟩

theorem getSecret_clean {next : Answer (.getSecret key) → Reconciler α}
    {outcome : Outcome ApiError α}
    (run : Trace (clusterEnv NoFault) c (.call (.getSecret key) next) events outcome e)
    (whole : outcome ≠ .cut) (stored : c.secrets key = some secret) :
    ∃ rest, Trace (clusterEnv NoFault) c (next (.ok secret)) rest outcome e ∧
      events = ⟨.getSecret key, .ok secret⟩ :: rest := by
  have possible : ∀ e, ¬ Refuses c (.getSecret key) e := by
    intro e refused
    cases refused with
    | getSecret missing _ =>
      rw [stored] at missing
      contradiction
  obtain ⟨reply, d, rest, served, after, rfl⟩ := call_clean run whole possible
  cases served with
  | getSecret stored' =>
    obtain rfl := Option.some.inj (stored.symm.trans stored')
    exact ⟨rest, after, rfl⟩

end Calls

section Stages
variable {c d e : Cluster}

theorem envFromProblem_clean (wg : Wireguard) {sources : List (EnvFromSource × Nat)}
    (clear : EnvClear c wg (sources.map (·.1)))
    (run : Trace (clusterEnv NoFault) c (envFromProblem wg sources) events outcome d)
    (whole : outcome ≠ .cut) :
    outcome = .done none ∧ d = c := by
  induction sources generalizing events with
  | nil =>
    obtain ⟨rfl, -, rfl⟩ := run.done_inv whole
    exact ⟨rfl, rfl⟩
  | cons entry rest ih =>
    obtain ⟨src, i⟩ := entry
    have later : ∀ {events},
        Trace (clusterEnv NoFault) c (envFromProblem wg rest) events outcome d →
        outcome = .done none ∧ d = c :=
      fun trace => ih (fun src' member => clear src' (List.mem_cons_of_mem _ member)) trace
    unfold envFromProblem at run
    cases named : src.secretRef with
    | none =>
      simp only [named] at run
      exact later run
    | some name =>
      simp only [named, ask_bind] at run
      cases stored : c.secrets ⟨wg.nameSpace, name⟩ with
      | none =>
        obtain ⟨answer, c', tail, answered, after, -⟩ := run.call_inv whole
        cases answer with
        | ok secret =>
          rw [getSecret_ok answered] at stored
          contradiction
        | error err =>
          rcases answered with ⟨refused, rfl⟩ | ⟨fault, -⟩
          · cases refused with
            | getSecret _ reason =>
              dsimp only at after
              rw [if_pos (by simp [ApiError.isNotFound, reason])] at after
              exact later after
          · exact fault.elim
      | some secret =>
        obtain ⟨tail, after, -⟩ := getSecret_clean run whole stored
        dsimp only at after
        rw [if_pos (clear src List.mem_cons_self name named secret stored)] at after
        exact later after

theorem prepare_clean (renderable : Renderable req wg c)
    (run : Trace (clusterEnv NoFault) c (prepare req) events outcome d) (whole : outcome ≠ .cut) :
    outcome = .done (.rendered wg (assigned c wg)) ∧ d = c := by
  simp only [prepare, ask_bind] at run
  obtain ⟨tail, run, -⟩ := getWireguard_clean run whole renderable.stored
  dsimp only at run
  rw [if_neg renderable.started, specProblem, renderable.spec] at run
  have clear : EnvClear c wg (wg.spec.gluetun.envFrom.zipIdx.map (·.1)) := by
    simpa using renderable.env
  obtain ⟨problem, c', first, rest, checking, run, -⟩ := run.bind_inv whole fun failed => by
    simpa using (envFromProblem_clean wg clear failed (by simp)).1
  obtain ⟨passed, rfl⟩ := envFromProblem_clean wg clear checking (by simp)
  obtain rfl := Outcome.done.inj passed
  dsimp only at run
  obtain ⟨svc, c'', tail, served, run, -⟩ := call_clean run whole (by rintro e ⟨⟩)
  cases served with
  | applyService _ =>
    have inside := renderable.inside
    dsimp only [assigned] at inside run
    simp only [inside] at run
    obtain ⟨rfl, -, rfl⟩ := run.done_inv whole
    exact ⟨rfl, rfl⟩

end Stages
end TunnelOperator.Controller
