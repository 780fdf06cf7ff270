import TunnelOperator.Injection.DefaultGateway
import TunnelOperator.Library.Wakeup

/-! The injection policy over whole runs of its reconciler: Wireguards come, change and
go, passes fail and stop anywhere, and the operator restarts. -/
namespace TunnelOperator.Injection
open Admission Program

/-- A Wireguard with everything of it that the pass does not read. -/
structure WatchedWireguard extends AnnotatedWireguard where
  rest : String

def visible (list : List WatchedWireguard) : List AnnotatedWireguard :=
  list.map (·.toAnnotatedWireguard)

inductive WireguardEvent where
  | create (obj : WatchedWireguard)
  | update (old new : WatchedWireguard)
  | delete (obj : WatchedWireguard)

/-- predicate.AnnotationChangedPredicate. -/
def annotationChanged : WireguardEvent → Bool
  | .create _ | .delete _ => true
  | .update old new => old.annotations ≠ new.annotations

/-- What others do to the Wireguards, and the event of it. -/
inductive Edit : List WatchedWireguard → WireguardEvent → List WatchedWireguard → Prop where
  | create (obj : WatchedWireguard) : Edit list (.create obj) (obj :: list)
  | update (old new : WatchedWireguard)
      (same : new.nameSpace = old.nameSpace ∧ new.name = old.name) :
      Edit (before ++ old :: after) (.update old new) (before ++ new :: after)
  | delete : Edit (before ++ obj :: after) (.delete obj) (before ++ after)

/-- What the operator stores. -/
structure Injected where
  policy : Option MutatingPolicy
  binding : Option Binding

/-- The list comes from the cache, in any order. A write that is answered with an error
may have landed; what is not there is not found. -/
inductive PolicyEnv (list : List WatchedWireguard) (w : Injected) :
    (request : PolicyCall) → PolicyAnswer request → Injected → Prop where
  | discovered (answer : PolicyAnswer (.discover groupVersion)) :
    PolicyEnv list w (.discover groupVersion) answer w
  | listed (shown : items.Perm (visible list)) : PolicyEnv list w .listWireguards (.ok items) w
  | unlisted (e : ApiError) : PolicyEnv list w .listWireguards (.error e) w
  | policyApplied (answer : PolicyAnswer (.applyPolicy policy)) :
      PolicyEnv list w (.applyPolicy policy) answer { w with policy := some policy }
  | policyNotApplied (e : ApiError) : PolicyEnv list w (.applyPolicy policy) (.error e) w
  | bindingApplied (answer : PolicyAnswer (.applyBinding binding)) :
      PolicyEnv list w (.applyBinding binding) answer { w with binding := some binding }
  | bindingNotApplied (e : ApiError) : PolicyEnv list w (.applyBinding binding) (.error e) w
  | bindingDeleted (answer : PolicyAnswer (.deleteBinding version)) :
      PolicyEnv list w (.deleteBinding version) answer { w with binding := none }
  | bindingNotDeleted (honest : e.isNotFound = true → w.binding = none) :
      PolicyEnv list w (.deleteBinding version) (.error e) w
  | policyDeleted (answer : PolicyAnswer (.deletePolicy version)) :
      PolicyEnv list w (.deletePolicy version) answer { w with policy := none }
  | policyNotDeleted (honest : e.isNotFound = true → w.policy = none) :
      PolicyEnv list w (.deletePolicy version) (.error e) w

abbrev PolicyLoop := WakeLoop
    (List WatchedWireguard) Injected PolicyCall PolicyAnswer ApiError PolicyResult

section
variable (image operatorNS : String)

/-- The startup request is the first pass. -/
def PolicyLoop.start (list : List WatchedWireguard) (stored : Injected) (queued : Nat)
    (kick : Bool) : PolicyLoop :=
  ⟨list, stored, queued, kick, .passing stored [] (reconcileInjection image operatorNS)⟩

/-- An edit reaches the queue when the predicate lets its event through. -/
inductive PolicyStep (s : PolicyLoop) : PolicyLoop → Prop where
  | edit (edit : Edit s.value event new) :
      PolicyStep s { s with value := new, queued := s.queued + (annotationChanged event).toNat }
  | loop (step : WakeLoop.Step PolicyEnv (reconcileInjection image operatorNS) s s') :
    PolicyStep s s'

end

variable {image operatorNS : String} {s s' : PolicyLoop} {w w' : Injected}

/-- An event that the predicate holds back tells nothing the pass reads. -/
theorem edit_visible (edit : Edit list event edited) (silent : annotationChanged event = false) :
    visible edited = visible list := by
  cases edit with
  | create | delete => contradiction
  | update old new same =>
    have annotations : old.annotations = new.annotations := by
      simpa [annotationChanged] using silent
    have unchanged : new.toAnnotatedWireguard = old.toAnnotatedWireguard := by
      obtain ⟨⟨_, _, _⟩, _⟩ := new
      obtain ⟨⟨_, _, _⟩, _⟩ := old
      simp_all
    simp [visible, unchanged]

theorem PolicyEnv.of_visible (same : visible new = visible list)
    (answered : PolicyEnv list w request answer w') :
    PolicyEnv new w request answer w' := by
  cases answered with
  | discovered answer => exact .discovered answer
  | listed shown => exact .listed (same ▸ shown)
  | unlisted e => exact .unlisted e
  | policyApplied answer => exact .policyApplied answer
  | policyNotApplied e => exact .policyNotApplied e
  | bindingApplied answer => exact .bindingApplied answer
  | bindingNotApplied e => exact .bindingNotApplied e
  | bindingDeleted answer => exact .bindingDeleted answer
  | bindingNotDeleted honest => exact .bindingNotDeleted honest
  | policyDeleted answer => exact .policyDeleted answer
  | policyNotDeleted honest => exact .policyNotDeleted honest

theorem PolicyStep.wake (step : PolicyStep image operatorNS s s') :
    WakeLoop.Step PolicyEnv (reconcileInjection image operatorNS) s s' := by
  cases step with
  | loop step => exact step
  | @edit event new edit =>
    cases passes : annotationChanged event with
    | true => exact .change new
    | false => exact .silent new fun answered => answered.of_visible (edit_visible edit passes)

/-! The parts of a pass, in any environment that answers like this one. -/

abbrev someEnv : Environment PolicyCall PolicyAnswer Injected := WakeLoop.anyEnv PolicyEnv

theorem orEnd_trace {env : Environment PolicyCall PolicyAnswer S} {outcome : Outcome ApiError Unit}
    (run : Trace env u (orEnd text ignore answer) events outcome v) :
    v = u ∧ ∀ value, outcome = .done value → ∀ e, answer = .error e → ignore = true ∧
      e.isNotFound = true := by
  cases answer with
  | ok =>
    cases run with
    | done | cut => exact ⟨rfl, fun _ _ _ same => by contradiction⟩
  | error e =>
    simp only [orEnd] at run
    split at run
    · rename_i ignored
      simp only [Bool.and_eq_true] at ignored
      cases run with
      | done | cut => exact ⟨rfl, fun _ _ _ same => Except.error.inj same ▸ ignored⟩
    · cases run with
      | fail | cut => exact ⟨rfl, fun _ same => by contradiction⟩

/-- A write that may land or not, and has landed when the pass goes on. -/
def Lands (w landed w' : Injected) (outcome : Outcome ApiError Unit) : Prop :=
  (w' = w ∨ w' = landed) ∧ ∀ value, outcome = .done value → w' = landed

section Writes
variable {outcome : Outcome ApiError Unit}

theorem applyPolicy_lands
    (run : Trace someEnv w (.call (.applyPolicy policy) (orEnd text false)) events outcome w') :
    Lands w { w with policy := some policy } w' outcome := by
  rcases run.call_cases with ⟨-, rfl, rfl⟩ | ⟨answer, u, rest, ⟨list, answered⟩, last, -⟩
  · exact ⟨.inl rfl, fun _ same => by contradiction⟩
  obtain ⟨rfl, passed⟩ := orEnd_trace last
  cases answered with
  | policyApplied => exact ⟨.inr rfl, fun _ _ => rfl⟩
  | policyNotApplied e => exact
    ⟨.inl rfl, fun value done => absurd (passed value done e rfl).1 (by simp)⟩

theorem applyBinding_lands
    (run : Trace someEnv w (.call (.applyBinding binding) (orEnd text false)) events outcome w') :
    Lands w { w with binding := some binding } w' outcome := by
  rcases run.call_cases with ⟨-, rfl, rfl⟩ | ⟨answer, u, rest, ⟨list, answered⟩, last, -⟩
  · exact ⟨.inl rfl, fun _ same => by contradiction⟩
  obtain ⟨rfl, passed⟩ := orEnd_trace last
  cases answered with
  | bindingApplied => exact ⟨.inr rfl, fun _ _ => rfl⟩
  | bindingNotApplied e =>
    exact ⟨.inl rfl, fun value done => absurd (passed value done e rfl).1 (by simp)⟩

theorem deleteBinding_lands
    (run : Trace someEnv w (.call (.deleteBinding version) (orEnd text true)) events outcome w') :
    Lands w { w with binding := none } w' outcome := by
  rcases run.call_cases with ⟨-, rfl, rfl⟩ | ⟨answer, u, rest, ⟨list, answered⟩, last, -⟩
  · exact ⟨.inl rfl, fun _ same => by contradiction⟩
  obtain ⟨rfl, passed⟩ := orEnd_trace last
  cases answered with
  | bindingDeleted => exact ⟨.inr rfl, fun _ _ => rfl⟩
  | bindingNotDeleted honest =>
    refine ⟨.inl rfl, fun value done => ?_⟩
    rw [← honest (passed value done _ rfl).2]

theorem deletePolicy_lands
    (run : Trace someEnv w (.call (.deletePolicy version) (orEnd text true)) events outcome w') :
    Lands w { w with policy := none } w' outcome := by
  rcases run.call_cases with ⟨-, rfl, rfl⟩ | ⟨answer, u, rest, ⟨list, answered⟩, last, -⟩
  · exact ⟨.inl rfl, fun _ same => by contradiction⟩
  obtain ⟨rfl, passed⟩ := orEnd_trace last
  cases answered with
  | policyDeleted => exact ⟨.inr rfl, fun _ _ => rfl⟩
  | policyNotDeleted honest =>
    refine ⟨.inl rfl, fun value done => ?_⟩
    rw [← honest (passed value done _ rfl).2]

end Writes

theorem servedPolicyVersion_trace {versions : List String} {outcome : Outcome ApiError String}
    (run : Trace someEnv w (servedPolicyVersion versions) events outcome w') :
    w' = w ∧ ∀ version, outcome = .done version → version = "" ∨ version ∈ versions := by
  induction versions generalizing w events with
  | nil =>
    cases run with
    | done => exact ⟨rfl, fun version same => .inl (by cases same; rfl)⟩
    | cut => exact ⟨rfl, fun _ same => by contradiction⟩
  | cons version others ih =>
    have later : ∀ {u events}, Trace someEnv u (servedPolicyVersion others) events outcome w' →
        w' = u ∧ ∀ found, outcome = .done found → found = "" ∨ found ∈ version :: others := by
      intro u events tail
      obtain ⟨same, found⟩ := ih tail
      exact ⟨same, fun v done => (found v done).imp id (List.mem_cons_of_mem _)⟩
    simp only [servedPolicyVersion, ask_bind] at run
    rcases run.call_cases with ⟨-, rfl, rfl⟩ | ⟨answer, u, rest, ⟨list, answered⟩, last, -⟩
    · exact ⟨rfl, fun _ same => by contradiction⟩
    cases answered with
    | discovered answer =>
      cases answer with
      | ok names =>
        simp only at last
        split at last
        · cases last with
          | done => exact ⟨rfl, fun found same => .inr (by cases same; exact List.mem_cons_self)⟩
          | cut => exact ⟨rfl, fun _ same => by contradiction⟩
        · exact later last
      | error e =>
        simp only at last
        split at last
        · exact later last
        · cases last with
          | fail | cut => exact ⟨rfl, fun _ same => by contradiction⟩

/-! A binding never stands without its policy. -/

def Covered (w : Injected) : Prop := w.binding.isSome = true → w.policy.isSome = true

/-- Two writes in a row, the second made when the first has landed. -/
theorem lands_in_turn {first second : PolicyReconciler Unit} {outcome : Outcome ApiError Unit}
    (run : Trace someEnv w (first >>= fun _ => second) events outcome w')
    (one : ∀ {events outcome u}, Trace someEnv w first events outcome u → Lands w half u outcome)
    (two : ∀ {events outcome u}, Trace someEnv half second events outcome u →
      Lands half whole u outcome) :
    (w' = w ∨ w' = half ∨ w' = whole) ∧ ∀ value, outcome = .done value → w' = whole := by
  rcases run.bind_cases with ⟨before, rfl⟩ | ⟨e, before, rfl⟩ | ⟨_, u, _, _, before, after, -⟩
  · exact ⟨(one before).1.imp id .inl, fun _ same => by contradiction⟩
  · exact ⟨(one before).1.imp id .inl, fun _ same => by contradiction⟩
  · obtain rfl := (one before).2 _ rfl
    exact ⟨.inr (two after).1, (two after).2⟩

theorem deleteInjectPolicy_covered {outcome : Outcome ApiError Unit}
    (run : Trace someEnv w (deleteInjectPolicy version) events outcome w') :
    (Covered w → Covered w') ∧ ∀ value, outcome = .done value → w' = ⟨none, none⟩ := by
  obtain ⟨lands, done⟩ := lands_in_turn run deleteBinding_lands deletePolicy_lands
  refine ⟨?_, done⟩
  rcases lands with rfl | rfl | rfl
  · exact id
  · exact fun _ there => by contradiction
  · exact fun _ there => by contradiction

theorem applyInjectPolicy_covered {outcome : Outcome ApiError Unit}
    (run : Trace someEnv w (applyInjectPolicy objects) events outcome w') :
    (Covered w → Covered w') ∧ ∀ value, outcome = .done value →
      w' = ⟨some objects.1, some objects.2⟩ := by
  obtain ⟨lands, done⟩ := lands_in_turn run applyPolicy_lands applyBinding_lands
  refine ⟨?_, done⟩
  rcases lands with rfl | rfl | rfl
  · exact id
  · exact fun _ _ => rfl
  · exact fun _ _ => rfl

/-- What a pass leaves when it settled the injection for the Wireguards it was shown. -/
def settledFor (image operatorNS version : String) (list : List AnnotatedWireguard) : Injected :=
  match defaultGateway list operatorNS with
  | .error _ => ⟨none, none⟩
  | .ok gateway => ⟨some (injectionFor image version gateway).1,
    some (injectionFor image version gateway).2⟩

theorem settleInjection_covered {outcome : Outcome ApiError Unit}
    (run : Trace someEnv w (settleInjection image operatorNS version list) events outcome w') :
    (Covered w → Covered w') ∧ ∀ value, outcome = .done value →
      w' = settledFor image operatorNS version list := by
  unfold settleInjection at run
  unfold settledFor
  cases chosen : defaultGateway list operatorNS with
  | error e =>
    simp only [chosen] at run
    exact deleteInjectPolicy_covered run
  | ok gateway =>
    simp only [chosen] at run
    exact applyInjectPolicy_covered run

/-- A pass keeps what is stored unless it settles the injection for the list it read. -/
theorem reconcileInjection_pass {outcome : Outcome ApiError PolicyResult}
    (run : Trace someEnv w (reconcileInjection image operatorNS) events outcome w') :
    (Covered w → Covered w') ∧ (outcome = .done .recheck → w' = w) ∧
      (outcome = .done .settled → ∃ version ∈ policyVersions,
        ∃ items, ⟨.listWireguards, .ok items⟩ ∈ events ∧
          w' = settledFor image operatorNS version items) := by
  rcases run.bind_cases with ⟨first, rfl⟩ | ⟨e, first, rfl⟩ | ⟨version, u, _, _, first, after, rfl⟩
  · obtain ⟨rfl, -⟩ := servedPolicyVersion_trace first
    exact ⟨id, by simp, by simp⟩
  · obtain ⟨rfl, -⟩ := servedPolicyVersion_trace first
    exact ⟨id, by simp, by simp⟩
  obtain ⟨rfl, served⟩ := servedPolicyVersion_trace first
  split at after
  · cases after with
    | done | cut => exact ⟨id, by simp, by simp⟩
  rename_i some
  have known : version ∈ policyVersions := (served version rfl).resolve_left some
  simp only [ask_bind] at after
  rcases after.call_cases with ⟨-, rfl, rfl⟩ | ⟨answer, u, rest, ⟨list, answered⟩, last, rfl⟩
  · exact ⟨id, by simp, by simp⟩
  cases answered with
  | unlisted e =>
    cases last with
    | fail | cut => exact ⟨id, by simp, by simp⟩
  | @listed items shown =>
    rcases last.bind_cases with ⟨settles, rfl⟩ | ⟨e, settles, rfl⟩
      | ⟨_, u, _, _, settles, ended, rfl⟩
    · exact ⟨(settleInjection_covered settles).1, by simp, by simp⟩
    · exact ⟨(settleInjection_covered settles).1, by simp, by simp⟩
    · obtain ⟨keeps, settled⟩ := settleInjection_covered settles
      cases ended with
      | cut => exact ⟨keeps, by simp, by simp⟩
      | done => exact ⟨keeps, by simp, fun _ => ⟨version, known, items, by simp, settled _ rfl⟩⟩

/-- The operator's own namespace annotates it as the default. -/
def IsDefault (operatorNS : String) (wg : AnnotatedWireguard) : Prop :=
  wg.nameSpace = operatorNS ∧ wg.annotations.at annotationDefault = "true"

instance (operatorNS : String) : DecidablePred (IsDefault operatorNS) :=
  fun _ => inferInstanceAs (Decidable (_ ∧ _))

/-- The policy and its binding are there exactly when one Wireguard is annotated, and are
then for that one. -/
structure InjectsDefault (image operatorNS version : String) (list : List AnnotatedWireguard)
    (stored : Injected) : Prop where
  present : stored.policy.isSome = true ∧ stored.binding.isSome = true ↔
    list.countP (IsDefault operatorNS ·) = 1
  absent : list.countP (IsDefault operatorNS ·) ≠ 1 → stored = ⟨none, none⟩
  sole : list.countP (IsDefault operatorNS ·) = 1 → ∀ wg ∈ list, IsDefault operatorNS wg →
    stored = ⟨some (injectionFor image version ⟨operatorNS, wg.name⟩).1,
      some (injectionFor image version ⟨operatorNS, wg.name⟩).2⟩

theorem defaults_eq (list : List AnnotatedWireguard) (operatorNS : String) :
    defaults list operatorNS = (list.filter (IsDefault operatorNS ·)).map (·.name) := by
  have tests : ∀ wg : AnnotatedWireguard, (wg.annotations.at annotationDefault = "true" &&
      wg.nameSpace = operatorNS) = decide (IsDefault operatorNS wg) := by
    intro wg
    rw [Bool.and_comm, ← Bool.decide_and]
    rfl
  simp only [defaults, tests]

theorem injectsDefault_settledFor (image operatorNS version : String)
    (list : List AnnotatedWireguard) :
    InjectsDefault image operatorNS version list (settledFor image operatorNS version list) := by
  have counts : list.countP (IsDefault operatorNS ·) = (defaults list operatorNS).length := by
    rw [defaults_eq, List.length_map, List.countP_eq_length_filter]
  have names : ∀ wg ∈ list, IsDefault operatorNS wg → wg.name ∈ defaults list operatorNS := by
    intro wg member annotated
    rw [defaults_eq]
    exact List.mem_map_of_mem (List.mem_filter.mpr ⟨member, decide_eq_true annotated⟩)
  unfold settledFor defaultGateway
  cases found : defaults list operatorNS with
  | nil =>
    rw [found] at counts
    exact ⟨by simp [counts], fun _ => rfl, by simp [counts]⟩
  | cons first others =>
    cases others with
    | nil =>
      rw [found] at counts
      refine ⟨by simp [counts], by simp [counts], fun _ wg member annotated => ?_⟩
      have named := names wg member annotated
      rw [found] at named
      rw [List.mem_singleton.mp named]
    | cons second others =>
      rw [found] at counts
      exact ⟨by simp [counts], fun _ => rfl, by simp [counts]⟩

theorem InjectsDefault.perm (injects : InjectsDefault image operatorNS version list stored)
    (same : list.Perm list') : InjectsDefault image operatorNS version list' stored where
  present := by rw [injects.present, same.countP_eq]
  absent := by
    rw [← same.countP_eq]
    exact injects.absent
  sole := by
    rw [← same.countP_eq]
    exact fun one wg member => injects.sole one wg (same.mem_iff.mpr member)

/-! Whole runs. -/

theorem policy_runs (run : Relation.ReflTransGen (PolicyStep image operatorNS) s s') :
    Relation.ReflTransGen (WakeLoop.Step PolicyEnv (reconcileInjection image operatorNS)) s s' :=
  run.lift id fun _ _ step => step.wake

/-- What the pass is shown of the Wireguards. -/
def Shown (list : List WatchedWireguard) : (request : PolicyCall) → PolicyAnswer request → Prop
  | .listWireguards, .ok items => items.Perm (visible list)
  | _, _ => True

theorem PolicyEnv.shown (answered : PolicyEnv list w request answer w') :
    Shown list request answer := by
  cases answered with
  | listed shown => exact shown
  | _ => trivial

/-- When the reconciler is at rest after a pass that settled, the policy and its binding
are there exactly when one Wireguard of the operator's own namespace is annotated as the
default, and are then those of that Wireguard. -/
theorem injection_at_rest (list : List WatchedWireguard) (stored : Injected) (queued : Nat)
    (kick : Bool)
    (run : Relation.ReflTransGen (PolicyStep image operatorNS)
      (.start image operatorNS list stored queued kick) s)
    (waits : s.phase = .waiting start events outcome) (down : s.kick = false)
    (empty : s.queued = 0) :
    (outcome = .done .settled → ∃ version ∈ policyVersions,
      InjectsDefault image operatorNS version (visible s.value) s.stored) ∧
    (outcome = .done .recheck → s.stored = start) := by
  obtain ⟨pass, -⟩ := WakeLoop.settled (policy_runs run) rfl waits down empty
  obtain ⟨-, unchanged, settled⟩ :=
    reconcileInjection_pass (pass.mono fun answered => ⟨_, answered⟩)
  refine ⟨fun done => ?_, unchanged⟩
  obtain ⟨version, known, items, read, settled⟩ := settled done
  have shown : Shown s.value .listWireguards (.ok items) := pass.answers PolicyEnv.shown _ read
  rw [settled]
  exact ⟨version, known, (injectsDefault_settledFor image operatorNS version items).perm shown⟩

/-- A Wireguard of the operator's namespace that is named the default. -/
def sampleDefault : WatchedWireguard := ⟨⟨"vpn", "gw", [(annotationDefault, "true")]⟩, ""⟩

def samplePolicies : MutatingPolicy × Binding := injectionFor "tunnel:1" "v1" ⟨"vpn", "gw"⟩

abbrev samplePolicyPass : PolicyReconciler PolicyResult := reconcileInjection "tunnel:1" "vpn"

def discovered : Event PolicyCall PolicyAnswer :=
  ⟨.discover "admissionregistration.k8s.io/v1", .ok ["mutatingadmissionpolicies"]⟩

theorem applies_sampleDefault (before : Injected) :
    Trace (PolicyEnv [sampleDefault]) before samplePolicyPass
    [discovered, ⟨.listWireguards, .ok (visible [sampleDefault])⟩,
      ⟨.applyPolicy samplePolicies.1, .ok ()⟩, ⟨.applyBinding samplePolicies.2, .ok ()⟩]
    (.done .settled) ⟨some samplePolicies.1, some samplePolicies.2⟩ :=
  .call (.discovered _) (.call (.listed (.refl _))
    (.call (.policyApplied _) (.call (.bindingApplied _) .done)))

theorem runs_sample {s s' : PolicyLoop}
    (run : Relation.ReflTransGen (WakeLoop.Step PolicyEnv samplePolicyPass) s s') :
    Relation.ReflTransGen (PolicyStep "tunnel:1" "vpn") s s' := run.lift id fun _ _ => .loop

theorem deletes_injection (before : Injected) : Trace (PolicyEnv []) before samplePolicyPass
    [discovered, ⟨.listWireguards, .ok []⟩, ⟨.deleteBinding "v1", .ok ()⟩,
      ⟨.deletePolicy "v1", .ok ()⟩]
    (.done .settled) ⟨none, none⟩ :=
  .call (.discovered _) (.call (.listed (.refl _))
    (.call (.bindingDeleted _) (.call (.policyDeleted _) .done)))

/-- The default is created after a first pass that found none. -/
theorem sampleDefault_injected : ∃ version ∈ policyVersions, InjectsDefault "tunnel:1" "vpn" version
    (visible [sampleDefault]) ⟨some samplePolicies.1, some samplePolicies.2⟩ := by
  have first := WakeLoop.run_pass samplePolicyPass (deletes_injection ⟨none, none⟩)
    (by simp) 0 false ⟨none, none⟩ []
  have second := WakeLoop.run_pass samplePolicyPass (applies_sampleDefault ⟨none, none⟩)
    (by simp) 0 false ⟨none, none⟩ []
  have created := (runs_sample first).tail (.edit (.create sampleDefault))
  have woken := (created.tail (.loop (.notify rfl))).tail (.loop (.kicked rfl rfl))
  exact (injection_at_rest [] ⟨none, none⟩ 0 false (woken.trans (runs_sample second)) rfl rfl rfl).1
    rfl

/-- At all times, a binding stands only where its policy does. -/
theorem binding_covered (list : List WatchedWireguard) (stored : Injected) (queued : Nat)
    (kick : Bool)
    (run : Relation.ReflTransGen (PolicyStep image operatorNS)
      (.start image operatorNS list stored queued kick) s)
    (first : stored.binding.isSome = true → stored.policy.isSome = true) :
    s.stored.binding.isSome = true → s.stored.policy.isSome = true := by
  have keeps {w events outcome w'}
      (pass : Trace someEnv w (reconcileInjection image operatorNS) events outcome w') :
      Covered w → Covered w' := (reconcileInjection_pass pass).1
  exact WakeLoop.always (policy_runs run) keeps rfl first

theorem sampleDefault_covered : ∃ s : PolicyLoop, s.stored.binding = some samplePolicies.2 ∧
    (s.stored.binding.isSome = true → s.stored.policy.isSome = true) :=
  ⟨_, rfl, binding_covered [sampleDefault] ⟨none, none⟩ 0 false
    (runs_sample (WakeLoop.run_pass samplePolicyPass
    (applies_sampleDefault ⟨none, none⟩) (by simp) 0 false ⟨none, none⟩ [])) (by simp)⟩

end TunnelOperator.Injection
