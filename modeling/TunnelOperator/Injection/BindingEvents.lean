import TunnelOperator.Injection.Watches

/-! The client RoleBinding follows the pods as long as the updates that are dropped do not
change whether a pod needs it. -/
namespace TunnelOperator.Injection
open Program
open Resources (labelComponent)

section
variable {ns : String} {permits : Space → Space → Prop} {s t u : Space} {needed : Bool}
    {existing : Option RoleBinding}

theorem needed_of_silent {before after : Option Pod} (silent : delivered before after = none) :
    (front ++ before.toList ++ back).filter cached =
    (front ++ after.toList ++ back).filter cached := by
  have nothing : ∀ {pod : Option Pod}, pod.filter cached = none →
      pod.toList.filter cached = [] := by
    intro pod none
    cases pod with
    | none => rfl
    | some pod => simpa [Option.filter] using none
  unfold delivered at silent
  split at silent <;> first | contradiction | skip
  rename_i absent absent'
  rw [List.filter_append, List.filter_append, List.filter_append, List.filter_append,
    nothing absent, nothing absent']

/-- A change that queues nothing leaves the answer and the RoleBinding as they were. -/
structure Unnoticed (ns : String) (s t : Space) : Prop where
  queued : s.queued = false
  needed : t.needed ns = s.needed ns
  binding : t.binding = s.binding

theorem Unnoticed.trans (first : Unnoticed ns s u) (second : Unnoticed ns u t) : Unnoticed ns s t :=
  ⟨first.queued, second.needed.trans first.needed, second.binding.trans first.binding⟩

theorem needed_eq (ns : String) (s : Space) :
    s.needed ns = needsClientRoleBinding ns (s.pods.filter cached) := by
  have same : s.matching [(labelEnabled, "true")] = s.pods.filter cached := by
    refine List.filter_congr fun pod _ => ?_
    simp [cached]
  rw [Space.needed, same]

theorem change_unnoticed (change : Change (Steady ns) s t) (idle : t.queued = false) :
    Unnoticed ns s t := by
  cases change with
  | binding own => contradiction
  | @pod front back before after here same permitted =>
    obtain ⟨quiet, dropped⟩ := Bool.or_eq_false_iff.mp idle
    refine ⟨quiet, ?_, rfl⟩
    cases event : delivered before after with
    | none =>
      rw [needed_eq, needed_eq, here]
      exact congrArg (needsClientRoleBinding ns) (needed_of_silent event).symm
    | some kind =>
      cases kind with
      | update => exact permitted event
      | create | delete =>
        rw [enqueues, event] at dropped
        contradiction

theorem changes_unnoticed (changes : Changes (Steady ns) s t) (idle : t.queued = false) :
    Unnoticed ns s t := by
  induction changes with
  | refl => exact ⟨idle, rfl, rfl⟩
  | tail _ change ih =>
    have last := change_unnoticed change idle
    exact (ih last.queued).trans last

theorem changes_own (changes : Changes permits s t) (own : s.Own) : t.Own := by
  induction changes with
  | refl => exact own
  | tail _ change ih =>
    cases change with
    | pod => exact ih
    | binding own => exact own

/-- Unless a request waits, the pods are those of a list that said `needed`, and the
RoleBinding is the one read. -/
structure Known (ns : String) (needed : Bool) (existing : Option RoleBinding) (s : Space) :
    Prop where
  own : s.Own
  listed : s.queued = false → s.needed ns = needed
  read : s.queued = false → s.binding = existing

structure Settled (ns : String) (s : Space) : Prop where
  own : s.Own
  answer : s.queued = false → s.binding.isSome = s.needed ns

theorem Known.changes (known : Known ns needed existing s) (changes : Changes (Steady ns) s t) :
    Known ns needed existing t where
  own := changes_own changes known.own
  listed idle :=
    have unnoticed := changes_unnoticed changes idle
    unnoticed.needed.trans (known.listed unnoticed.queued)
  read idle :=
    have unnoticed := changes_unnoticed changes idle
    unnoticed.binding.trans (known.read unnoticed.queued)

theorem Settled.changes (settled : Settled ns s) (changes : Changes (Steady ns) s t) :
    Settled ns t where
  own := changes_own changes settled.own
  answer idle := by
    have unnoticed := changes_unnoticed changes idle
    rw [unnoticed.binding, unnoticed.needed]
    exact settled.answer unnoticed.queued

theorem Known.settled (known : Known ns needed existing s) (agree : existing.isSome = needed) :
    Settled ns s where
  own := known.own
  answer idle := by rw [known.read idle, known.listed idle, agree]

/-! The writes bring the RoleBinding to where the list said. -/

theorem apply_settles (known : Known ns true existing s)
    (run : Trace (FreshEnv ns (Steady ns)) s (switchAction ns existing .apply) events
      (.done ()) t) :
    Settled ns t := by
  simp only [switchAction, ask_bind] at run
  obtain ⟨answer, v, rest, ⟨u, answers, changes⟩, ended, -⟩ := run.call_returned
  suffices settled : (∃ e, answer = .error e) ∨ Settled ns u by
    rcases settled with ⟨e, rfl⟩ | settled
    · cases ended
    · cases answer with
      | error e => cases ended
      | ok =>
        cases ended
        exact settled.changes changes
  cases answers with
  | created absent uid => exact .inr ⟨ours_desired ns uid, nofun⟩
  | merged present mutable =>
    refine .inr ⟨ours_applied _ ns, fun idle => ?_⟩
    obtain ⟨quiet, -⟩ := Bool.or_eq_false_iff.mp idle
    exact (known.listed quiet).symm
  | unapplied e => exact .inl ⟨e, rfl⟩

theorem delete_settles (known : Known ns false (some binding) s)
    (run : Trace (FreshEnv ns (Steady ns)) s (switchAction ns (some binding) .delete) events
      (.done ()) t) :
    Settled ns t := by
  simp only [switchAction, ask_bind] at run
  obtain ⟨answer, v, rest, ⟨u, answers, changes⟩, ended, -⟩ := run.call_returned
  cases answers with
  | deleted present same =>
    cases ended
    have settled : Settled ns { s with binding := none, queued := true } := ⟨rfl, nofun⟩
    exact settled.changes changes
  | gone absent missing =>
    dsimp only at ended
    rw [if_pos missing] at ended
    cases ended
    have settled : Settled ns s := by
      refine ⟨known.own, fun idle => ?_⟩
      have stored := known.read idle
      rw [absent] at stored
      contradiction
    exact settled.changes changes
  | undeleted fault =>
    dsimp only at ended
    rw [if_neg (by simp [fault])] at ended
    cases ended

theorem switch_settles (known : Known ns needed existing s) (own : existing.all ours = true)
    (run : Trace (FreshEnv ns (Steady ns)) s
      (switchAction ns existing (clientRoleBindingAction needed existing))
      events (.done ()) t) : Settled ns t := by
  rw [clientRoleBindingAction_eq] at run
  cases needed with
  | true =>
    cases existing with
    | none => exact apply_settles known run
    | some binding =>
      dsimp only at run
      rw [if_pos (show ours binding = true from own)] at run
      exact apply_settles known run
  | false =>
    cases existing with
    | none =>
      cases run
      exact known.settled rfl
    | some binding =>
      dsimp only at run
      rw [if_pos (show ours binding = true from own)] at run
      exact delete_settles known run

theorem carryOut_settles (known : Known ns needed existing s) (own : existing.all ours = true)
    (run : Trace (FreshEnv ns (Steady ns)) s
      (carryOutAction ns existing (clientRoleBindingAction needed existing))
      events (.done ()) t) : Settled ns t := by
  unfold carryOutAction at run
  split at run
  · obtain ⟨_, v, _, ⟨u, answers, changes⟩, switching, -⟩ := run.call_returned
    cases answers with
    | forgot => exact switch_settles (known.changes changes) own switching
  · exact switch_settles known own run

theorem existing_fresh (run : Trace (FreshEnv ns permits) s (existingRoleBinding ns) events
    (.done existing) t) :
    existing = s.binding ∧ Changes permits s t := by
  simp only [existingRoleBinding, ask_bind] at run
  obtain ⟨answer, v, rest, ⟨u, answers, changes⟩, ended, -⟩ := run.call_returned
  cases answers with
  | got =>
    generalize found : s.binding = entry at ended
    cases entry <;> cases ended <;> exact ⟨rfl, changes⟩
  | unread fault =>
    dsimp only at ended
    rw [if_neg (by simp [fault])] at ended
    cases ended

theorem pass_settles (own : s.Own)
    (run : Trace (FreshEnv ns (Steady ns)) s (reconcileClientRoleBinding ns) events (.done ()) t) :
    Settled ns t := by
  simp only [reconcileClientRoleBinding, ask_bind] at run
  obtain ⟨answer, v, rest, ⟨u, answers, changes⟩, ended, -⟩ := run.call_returned
  cases answers with
  | unlisted e => cases ended
  | listed =>
    obtain ⟨existing, w, _, _, reading, deciding, -⟩ := ended.bind_returned
    obtain ⟨rfl, later⟩ := existing_fresh reading
    have owned := changes_own changes own
    have known : Known ns (s.needed ns) v.binding v :=
      ⟨owned, fun idle => (changes_unnoticed changes idle).needed, fun _ => rfl⟩
    exact carryOut_settles (known.changes later) owned deciding

/-- The only binding the operator applies is the one it builds. -/
def Proper (ns : String) : BindingCall → Prop
  | .applyForced binding => binding = desiredClientRoleBinding ns
  | _ => True

theorem reconcile_proper (ns : String) :
    (reconcileClientRoleBinding ns).Safe (fun _ _ => True) (Proper ns) fun _ => True := by
  refine ⟨trivial, fun answer _ => ?_⟩
  cases answer with
  | error e => trivial
  | ok pods =>
    refine (existing_safe trivial).bind fun existing _ => ?_
    exact carryOut_safe (fun _ => rfl) (fun _ _ => trivial) trivial trivial trivial

/-- However a pass ends, the RoleBinding stays the operator's. -/
theorem pass_own (own : s.Own)
    (run : Trace (FreshEnv ns permits) s (reconcileClientRoleBinding ns) events outcome t) :
    t.Own := by
  refine (run.safe (reconcile_proper ns) ?_ own).1
  rintro s request answer t proper ⟨u, answers, changes⟩ own
  refine ⟨trivial, changes_own changes ?_⟩
  cases answers with
  | created absent uid =>
    obtain rfl := proper
    exact ours_desired ns uid
  | merged present mutable =>
    obtain rfl := proper
    exact ours_applied _ ns
  | deleted => rfl
  | _ => exact own

theorem run_settled (reached : SpaceRun ns (Steady ns) s) : Settled ns s := by
  induction reached with
  | @start pods binding own =>
    refine ⟨own, fun idle => ?_⟩
    obtain ⟨none, absent⟩ := Bool.or_eq_false_iff.mp idle
    have empty : pods.filter cached = [] := by simpa using none
    rw [needed_eq, absent, empty]
    simp [needsClientRoleBinding]
  | changed before change ih => exact ih.changes (.single change)
  | pass before due meanwhile run ih => exact pass_settles (changes_own meanwhile ih.own) run
  | failed before due meanwhile run ih =>
    have own := pass_own (changes_own meanwhile ih.own) run
    exact ⟨own, nofun⟩

end

/-- Unless a request waits, the operator's RoleBinding exists exactly when a pod needs it, in
every run whose dropped updates leave the answer of needsClientRoleBinding as it is. -/
theorem binding_follows_pods (ns : String) (ordinary : ns ≠ excludedNamespace) (s : Space)
    (reached : SpaceRun ns (Steady ns) s) (idle : s.queued = false) :
    (∃ binding, s.binding = some binding ∧ ours binding = true) ↔
      ∃ pod ∈ s.pods, pod.labels.at labelEnabled = "true" ∧
        pod.labels.has labelComponent = false := by
  obtain ⟨own, answer⟩ := run_settled reached
  have exists_iff : (∃ binding, s.binding = some binding ∧ ours binding = true) ↔
      s.binding.isSome = true := by
    cases found : s.binding with
    | none => simp
    | some binding =>
      have owned : ours binding = true := by rwa [Space.Own, found] at own
      simpa using owned
  rw [exists_iff, answer idle, needed_eq, needsClientRoleBinding, if_neg ordinary]
  simp [cached]

/-! A namespace in which nobody but the operator acts during a pass. -/

def freshHandler : Handler BindingCall BindingAnswer Space := fun s request =>
  match request with
  | .listPods nameSpace labels =>
    if nameSpace = "apps" then (.ok (s.matching labels), s) else (.error faultyAnswer, s)
  | .getRoleBinding key =>
    if key = clientRoleKey "apps" then (orNotFound s.binding, s) else (.error faultyAnswer, s)
  | .applyForced binding =>
    match s.binding with
    | none => (.ok (), { s with binding := some { binding with uid := "operator" }, queued := true })
    | some stored =>
      if stored.roleRef = binding.roleRef then
        (.ok (), { s with
          binding := some (applied stored binding)
          queued := s.queued || applied stored binding ≠ stored })
      else (.error faultyAnswer, s)
  | .deleteRoleBinding .. => (.error faultyAnswer, s)
  | .forgetRefusal _ => ((), s)
  | .rememberRefusal _ => (false, s)
  | .logRefusal _ => ((), s)

theorem freshHandler_answers (permits : Space → Space → Prop) (s : Space) (request : BindingCall) :
    FreshEnv "apps" permits s request (freshHandler s request).1 (freshHandler s request).2 := by
  refine ⟨_, ?_, .refl⟩
  cases request with
  | listPods nameSpace labels =>
    simp only [freshHandler]
    split
    · rename_i same
      subst same
      exact .listed
    · exact .unlisted _
  | getRoleBinding key =>
    simp only [freshHandler]
    split
    · rename_i same
      subst same
      exact .got
    · exact .unread rfl
  | applyForced binding =>
    simp only [freshHandler]
    split
    · rename_i absent
      exact .created absent _
    · rename_i stored present
      split
      · rename_i mutable
        exact .merged present mutable
      · exact .unapplied _
  | deleteRoleBinding => exact .undeleted rfl
  | forgetRefusal => exact .forgot
  | rememberRefusal => exact .remembered _
  | logRefusal => exact .logged

/-- The namespace after a pass in which nobody else acts. -/
def afterBindingPass (s : Space) : Space :=
  ((reconcileClientRoleBinding "apps").play freshHandler { s with queued := false }).2.2

theorem reached_afterBindingPass (reached : SpaceRun "apps" permits s) (due : s.queued = true)
    (returns : ((reconcileClientRoleBinding "apps").play freshHandler
      { s with queued := false }).2.1.value = some ()) :
    SpaceRun "apps" permits (afterBindingPass s) := by
  have run := play_trace freshHandler (freshHandler_answers permits)
    (reconcileClientRoleBinding "apps") { s with queued := false }
  rw [Outcome.value_eq_some.mp returns] at run
  exact .pass reached due .refl run

def appPod : Pod := ⟨"app", [(labelEnabled, "true")]⟩

def appSpace : Space := ⟨[appPod], none, true⟩

theorem binding_follows_app_pod :
    (afterBindingPass (afterBindingPass appSpace)).queued = false ∧
      ∃ binding, (afterBindingPass (afterBindingPass appSpace)).binding = some binding ∧ ours binding = true := by
  have idle : (afterBindingPass (afterBindingPass appSpace)).queued = false := by decide +kernel
  have start : SpaceRun "apps" (Steady "apps") appSpace := .start rfl
  have first := reached_afterBindingPass start rfl (by decide +kernel)
  have second := reached_afterBindingPass first (by decide +kernel) (by decide +kernel)
  refine ⟨idle, (binding_follows_pods "apps" (by decide) _ second idle).mpr ⟨appPod, ?_, by decide, by decide⟩⟩
  decide +kernel

/-- A pod of the operator's own. -/
def componentPod : Pod := ⟨"app", [(labelEnabled, "true"), (labelComponent, "gateway")]⟩

def componentSpace : Space := ⟨[componentPod], none, true⟩

/-- Once the pass is over, the pod loses its component label: an update that is dropped. -/
def relabelledSpace : Space := { afterBindingPass componentSpace with pods := [appPod] }

theorem relabelled_pod_missed :
    SpaceRun "apps" (fun _ _ => True) relabelledSpace ∧ relabelledSpace.queued = false ∧
      relabelledSpace.binding = none ∧ appPod ∈ relabelledSpace.pods ∧
      appPod.labels.at labelEnabled = "true" ∧ appPod.labels.has labelComponent = false := by
  have start : SpaceRun "apps" (fun _ _ => True) componentSpace := .start rfl
  have first := reached_afterBindingPass start rfl (by decide +kernel)
  have pods : (afterBindingPass componentSpace).pods = [] ++ (some componentPod).toList ++ [] := by
    decide +kernel
  have renames : ∀ old new, some componentPod = some old → some appPod = some new → new.name = old.name := by
    rintro old new ⟨⟩ ⟨⟩
    rfl
  have relabelled := SpaceRun.changed first (.pod pods renames fun _ => trivial)
  have dropped : enqueues (some componentPod) (some appPod) = false := by decide
  rw [dropped, Bool.or_false] at relabelled
  exact ⟨relabelled, by decide +kernel, by decide +kernel, by decide, by decide, by decide⟩

end TunnelOperator.Injection
