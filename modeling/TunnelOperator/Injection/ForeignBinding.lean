import TunnelOperator.Injection.ClientBinding
import TunnelOperator.Library.Register
import Mathlib.Logic.Relation

/-! Passes over a RoleBinding that users create, edit and delete meanwhile, read through a
cache that lags: what the operator's writes land on. -/
namespace TunnelOperator.Injection
open Program

inductive WriteKind where
  | apply | delete
  deriving DecidableEq, Repr

/-- One write of the operator that landed: the binding as the pass had read it, the
versions stored after that one, and what was stored when the write landed. -/
structure Landing where
  kind : WriteKind
  read : Option RoleBinding
  since : List (Option RoleBinding)
  stored : Option RoleBinding

/-- The RoleBinding of one namespace in all its versions, with the UIDs of those users have
created without the managed-by label and the operator's writes. -/
structure BindingState where
  bindings : Register (Option RoleBinding)
  foreign : List String
  landed : List Landing

namespace BindingState

def landing (s : BindingState) (kind : WriteKind) : Landing :=
  ⟨kind, s.bindings.lastRead, s.bindings.versions.drop (s.bindings.seen + 1), s.bindings.current⟩

/-- The operator stores `entry`. -/
def land (s : BindingState) (kind : WriteKind) (entry : Option RoleBinding) : BindingState :=
  { s with bindings := s.bindings.write entry, landed := s.landing kind :: s.landed }

/-- No binding of the name ever had this UID. -/
def Fresh (s : BindingState) (uid : String) : Prop :=
  ∀ entry ∈ s.bindings.versions, entry.map (·.uid) ≠ some uid

instance (s : BindingState) (uid : String) : Decidable (s.Fresh uid) :=
  inferInstanceAs (Decidable (∀ entry ∈ _, _))

end BindingState

/-- What a user may do: roleRef and UID of a stored binding cannot be edited. -/
inductive UserStep (ns : String) (s : BindingState) : BindingState → Prop where
  | create (absent : s.bindings.current = none) (fresh : s.Fresh binding.uid)
      (named : (⟨binding.nameSpace, binding.name⟩ : NamespacedName) = clientRoleKey ns) :
      UserStep ns s { s with
        bindings := s.bindings.write (some binding)
        foreign := if ours binding then s.foreign else binding.uid :: s.foreign }
  | edit (stored : s.bindings.current = some binding) (labels : Labels) (subjects : List Subject) :
      UserStep ns s { s with
        bindings := s.bindings.write
          (some { binding with labels := labels, subjects := subjects }) }
  | delete : UserStep ns s { s with bindings := s.bindings.write none }

def orNotFound : Option α → Except ApiError α
  | some value => .ok value
  | none => .error ⟨.notFound, "not found"⟩

/-- Reads of the binding may lag. An apply creates the binding or changes the one stored
if that has the same roleRef; a delete needs the UID it names. A write answered with an
error may have landed. Pods are listed in any way. -/
inductive BindingAnswers (ns : String) (s : BindingState) :
    (request : BindingCall) → BindingAnswer request → BindingState → Prop where
  | listed (answer : BindingAnswer (.listPods nameSpace matching)) :
    BindingAnswers ns s (.listPods nameSpace matching) answer s
  | cached (reads : s.bindings.Reads entry bindings) :
      BindingAnswers ns s (.getRoleBinding (clientRoleKey ns)) (orNotFound entry)
        { s with bindings := bindings }
  | unread (fault : e.isNotFound = false) : BindingAnswers ns s (.getRoleBinding key) (.error e) s
  | created (absent : s.bindings.current = none) (fresh : s.Fresh uid)
      (answer : BindingAnswer (.applyForced binding)) :
      BindingAnswers ns s (.applyForced binding) answer
        (s.land .apply (some { binding with uid := uid }))
  | merged (present : s.bindings.current = some stored) (mutable : stored.roleRef = binding.roleRef)
      (answer : BindingAnswer (.applyForced binding)) :
      BindingAnswers ns s (.applyForced binding) answer
        (s.land .apply (some (applied stored binding)))
  | unapplied (e : ApiError) : BindingAnswers ns s (.applyForced binding) (.error e) s
  | deleted (present : s.bindings.current = some stored) (same : stored.uid = uid)
      (answer : BindingAnswer (.deleteRoleBinding key uid)) :
      BindingAnswers ns s (.deleteRoleBinding key uid) answer (s.land .delete none)
  | undeleted (e : ApiError) : BindingAnswers ns s (.deleteRoleBinding key uid) (.error e) s
  | forgot : BindingAnswers ns s (.forgetRefusal nameSpace) () s
  | remembered (seen : Bool) : BindingAnswers ns s (.rememberRefusal nameSpace) seen s
  | logged : BindingAnswers ns s (.logRefusal nameSpace) () s

/-- Users act after any call. -/
def BindingEnv (ns : String) : Environment BindingCall BindingAnswer BindingState :=
    fun s request answer t =>
  ∃ u, BindingAnswers ns s request answer u ∧ Relation.ReflTransGen (UserStep ns) u t

inductive BindingRun (ns : String) : BindingState → Prop where
  | start : BindingRun ns ⟨.single none, [], []⟩
  | user (before : BindingRun ns s) (step : UserStep ns s t) : BindingRun ns t
  | pass (before : BindingRun ns s)
      (run : Trace (BindingEnv ns) s (reconcileClientRoleBinding ns) events outcome t) :
      BindingRun ns t

/-- The write spares what users have created without the label, as long as it lacks it. -/
def Landing.Spares (foreign : List String) (l : Landing) : Prop :=
  ∀ binding, l.stored = some binding → binding.uid ∈ foreign → ours binding = true

/-- What is stored at the write was there when the pass read it, or is not an unlabelled
binding of a user. -/
def Landing.Undisturbed (foreign : List String) (l : Landing) : Prop :=
  ∀ binding, l.since.getLast? = some (some binding) → binding.uid ∈ foreign → ours binding = true

/-- A landing of a pass: decided on a version that is absent or the operator's own. -/
structure Landing.Decided (l : Landing) : Prop where
  read : l.read.all ours = true
  stored : l.since = [] ∧ l.stored = l.read ∨ l.since.getLast? = some l.stored

section
variable {ns : String} {s t u : BindingState}

theorem landing_stored (s : BindingState) (kind : WriteKind) :
    (s.landing kind).since = [] ∧ (s.landing kind).stored = (s.landing kind).read ∨
      (s.landing kind).since.getLast? = some (s.landing kind).stored := by
  rcases Nat.lt_or_eq_of_le (Nat.succ_le_of_lt s.bindings.bound) with later | newest
  · right
    have some : s.bindings.versions.getLast? = some s.bindings.current :=
      List.getLast?_eq_some_getLast s.bindings.nonempty
    rw [BindingState.landing, List.getLast?_drop, if_neg (Nat.not_le.mpr later), some]
  · exact .inl ⟨List.drop_eq_nil_of_le (Nat.le_of_eq newest.symm),
      (Register.lastRead_newest newest).symm⟩

/-- Users touch neither the operator's log nor what its cache has shown. -/
theorem users_keep (steps : Relation.ReflTransGen (UserStep ns) s t) :
    t.landed = s.landed ∧ t.bindings.lastRead = s.bindings.lastRead := by
  induction steps with
  | refl => exact ⟨rfl, rfl⟩
  | tail _ step ih => cases step <;> exact ⟨ih.1, Register.lastRead_write.trans ih.2⟩

/-- What a call can mean for the log and for the version read last. -/
def BindingEffect (s t : BindingState) : (request : BindingCall) → BindingAnswer request → Prop
  | .getRoleBinding _, answer => t.landed = s.landed ∧
      (answer = orNotFound t.bindings.lastRead ∨ ∃ e, answer = .error e ∧ e.isNotFound = false)
  | .applyForced _, _ | .deleteRoleBinding .., _ => t.bindings.lastRead = s.bindings.lastRead ∧
      ∀ l ∈ t.landed, l ∈ s.landed ∨ ∃ kind, l = s.landing kind
  | _, _ => t.landed = s.landed ∧ t.bindings.lastRead = s.bindings.lastRead

theorem BindingAnswers.effect (answered : BindingAnswers ns s request answer t) :
    BindingEffect s t request answer := by
  cases answered with
  | listed | forgot | remembered | logged => exact ⟨rfl, rfl⟩
  | cached reads => exact ⟨rfl, .inl (congrArg orNotFound reads.lastRead.symm)⟩
  | unread fault => exact ⟨rfl, .inr ⟨_, rfl, fault⟩⟩
  | unapplied | undeleted => exact ⟨rfl, fun l => .inl⟩
  | created | merged | deleted =>
    refine ⟨Register.lastRead_write, fun l member => ?_⟩
    rcases List.mem_cons.mp member with rfl | earlier
    · exact .inr ⟨_, rfl⟩
    · exact .inl earlier

theorem env_effect (answered : BindingEnv ns s request answer t) :
    BindingEffect s t request answer := by
  obtain ⟨u, answers, users⟩ := answered
  obtain ⟨landed, read⟩ := users_keep users
  have effect := answers.effect
  cases request with
  | getRoleBinding key =>
    show t.landed = _ ∧ _
    rw [landed, read]
    exact effect
  | applyForced | deleteRoleBinding =>
    show t.bindings.lastRead = _ ∧ ∀ l ∈ t.landed, _
    rw [landed, read]
    exact effect
  | listPods | forgetRefusal | rememberRefusal | logRefusal =>
    exact ⟨landed.trans effect.1, read.trans effect.2⟩

/-- The calls a pass makes once it has read the binding: writes only if it owns it. -/
def Guarded (owned : Prop) : BindingCall → Prop
  | .getRoleBinding _ => False
  | .applyForced _ | .deleteRoleBinding .. => owned
  | _ => True

/-- From `s` to `t` the pass has read nothing new and its writes were decided. -/
structure Decides (s t : BindingState) : Prop where
  read : t.bindings.lastRead = s.bindings.lastRead
  landed : ∀ l ∈ t.landed, l ∈ s.landed ∨ l.Decided

theorem guarded_decides {program : BindingReconciler α}
    (run : Trace (BindingEnv ns) s program events outcome t)
    (safe : program.Safe (fun _ _ => True)
      (Guarded (s.bindings.lastRead.all ours = true)) fun _ => True) :
    Decides s t := by
  refine (run.safe safe ?_ (⟨rfl, fun l => .inl⟩ : Decides s s)).1
  intro u request answer v allowed answered before
  refine ⟨trivial, ?_⟩
  have effect := env_effect answered
  cases request with
  | getRoleBinding => exact allowed.elim
  | listPods | forgetRefusal | rememberRefusal | logRefusal =>
    exact ⟨effect.2.trans before.read, effect.1 ▸ before.landed⟩
  | applyForced | deleteRoleBinding =>
    refine ⟨effect.1.trans before.read, fun l member => ?_⟩
    rcases effect.2 l member with earlier | ⟨kind, rfl⟩
    · exact before.landed l earlier
    · exact .inr ⟨(congrArg (Option.all ours) before.read).trans allowed, landing_stored u kind⟩

/-- Reading the binding writes nothing, and what it returns is the version read. -/
theorem existing_read (run : Trace (BindingEnv ns) s (existingRoleBinding ns) events outcome t) :
    t.landed = s.landed ∧ ∀ existing, outcome = .done existing →
      existing = t.bindings.lastRead := by
  simp only [existingRoleBinding, ask_bind] at run
  cases run with
  | cut => exact ⟨rfl, nofun⟩
  | @call _ _ answer u _ _ _ _ answered rest =>
    obtain ⟨same, rfl | ⟨e, rfl, fault⟩⟩ := env_effect answered
    · generalize found : u.bindings.lastRead = entry at rest
      cases entry <;> cases rest <;> refine ⟨same, ?_⟩ <;> rintro existing ⟨⟩ <;> exact found.symm
    · dsimp only at rest
      rw [if_neg (by simp [fault])] at rest
      cases rest <;> exact ⟨same, nofun⟩

theorem pass_decided (run : Trace (BindingEnv ns) s
    (reconcileClientRoleBinding ns) events outcome t) :
    ∀ l ∈ t.landed, l ∈ s.landed ∨ l.Decided := by
  simp only [reconcileClientRoleBinding, ask_bind] at run
  cases run with
  | cut => exact fun l => .inl
  | @call _ _ answer u _ _ _ _ answered rest =>
    obtain ⟨same, -⟩ := env_effect answered
    rw [← same]
    cases answer with
    | error e => cases rest <;> exact fun l => .inl
    | ok pods =>
      rcases rest.bind_cases with ⟨reading, -⟩ | ⟨_, reading, -⟩
        | ⟨existing, v, _, _, reading, deciding, -⟩
      · exact (existing_read reading).1 ▸ fun l => .inl
      · exact (existing_read reading).1 ▸ fun l => .inl
      · obtain ⟨unwritten, read⟩ := existing_read reading
        obtain rfl := read existing rfl
        rw [← unwritten]
        have writes : clientRoleBindingAction
            (needsClientRoleBinding ns pods) v.bindings.lastRead = .apply ∨
            clientRoleBindingAction (needsClientRoleBinding ns pods) v.bindings.lastRead =
              .delete → _ :=
          write_ours v.bindings.lastRead
        exact (guarded_decides deciding (carryOut_safe (fun decided => writes (.inl decided))
          (fun decided _ => writes (.inr decided)) trivial trivial trivial)).landed

end

/-- A binding that a user created without the label is spared by all writes of a run
exactly when none of them finds such a binding stored since the pass has read. -/
theorem foreign_binding_spared_iff (ns : String) (s : BindingState) (reached : BindingRun ns s) :
    (∀ l ∈ s.landed, l.Spares s.foreign) ↔ ∀ l ∈ s.landed, l.Undisturbed s.foreign := by
  have decided : ∀ l ∈ s.landed, l.Decided := by
    induction reached with
    | start => simp
    | user before step ih => cases step <;> exact ih
    | pass before run ih => exact fun l member => (pass_decided run l member).elim (ih l) id
  refine forall₂_congr fun l member => ?_
  obtain ⟨owned, ⟨none, same⟩ | last⟩ := decided l member
  · refine iff_of_true (fun binding stored _ => ?_) fun binding last => ?_
    · rw [← same, stored] at owned
      exact owned
    · rw [none] at last
      contradiction
  · simp only [Landing.Spares, Landing.Undisturbed, last, Option.some.injEq]

/-! A namespace with one labelled pod, in which a user may get in between. -/

/-- The user's RoleBinding to the client ClusterRole. -/
def userBinding : RoleBinding :=
  { desiredClientRoleBinding "apps" with uid := "user", labels := [], subjects := [⟨"", "ServiceAccount", "app"⟩] }

def createBinding (s : BindingState) (binding : RoleBinding) : BindingState :=
  if s.bindings.current = none ∧ s.Fresh binding.uid ∧
      (⟨binding.nameSpace, binding.name⟩ : NamespacedName) = clientRoleKey "apps" then
    { s with
      bindings := s.bindings.write (some binding)
      foreign := if ours binding then s.foreign else binding.uid :: s.foreign }
  else s

theorem createBinding_steps (s : BindingState) (binding : RoleBinding) :
    Relation.ReflTransGen (UserStep "apps") s (createBinding s binding) := by
  unfold createBinding
  split
  · rename_i free
    exact .single (.create free.1 free.2.1 free.2.2)
  · exact .refl

def faultyAnswer : ApiError := ⟨.other, "unavailable"⟩

/-- Reads are fresh; right after the read of the binding the user creates `meanwhile`. -/
def raceHandler (meanwhile : Option RoleBinding) : Handler BindingCall BindingAnswer BindingState :=
    fun s request =>
  match request with
  | .listPods .. => (.ok [⟨"app", [(labelEnabled, "true")]⟩], s)
  | .getRoleBinding key =>
    if key = clientRoleKey "apps" then
      let read := { s with bindings :=
        ⟨s.bindings.versions, s.bindings.versions.length - 1,
          Nat.sub_one_lt_of_lt s.bindings.bound⟩ }
      (orNotFound s.bindings.current, (meanwhile.map (createBinding read)).getD read)
    else (.error faultyAnswer, s)
  | .applyForced binding =>
    match s.bindings.current with
    | none =>
      if s.Fresh "operator" then (.ok (), s.land .apply (some { binding with uid := "operator" }))
      else (.error faultyAnswer, s)
    | some stored =>
      if stored.roleRef = binding.roleRef then
        (.ok (), s.land .apply (some (applied stored binding)))
      else (.error faultyAnswer, s)
  | .deleteRoleBinding .. => (.error faultyAnswer, s)
  | .forgetRefusal _ => ((), s)
  | .rememberRefusal _ => (false, s)
  | .logRefusal _ => ((), s)

theorem raceHandler_answers (meanwhile : Option RoleBinding) (s : BindingState)
    (request : BindingCall) :
    BindingEnv "apps" s request (raceHandler meanwhile s request).1
      (raceHandler meanwhile s request).2 := by
  cases request with
  | listPods => exact ⟨_, .listed _, .refl⟩
  | getRoleBinding key =>
    simp only [raceHandler]
    split
    · rename_i same
      subst same
      have newest : s.bindings.current =
          s.bindings.versions.get ⟨s.bindings.versions.length - 1,
            Nat.sub_one_lt_of_lt s.bindings.bound⟩ := by
        rw [Register.current, List.getLast_eq_getElem]
        rfl
      rw [newest]
      refine ⟨_, .cached (.version (Nat.le_sub_one_of_lt s.bindings.bound) _), ?_⟩
      cases meanwhile with
      | none => exact .refl
      | some binding => exact createBinding_steps _ binding
    · exact ⟨_, .unread rfl, .refl⟩
  | applyForced binding =>
    simp only [raceHandler]
    split
    · rename_i absent
      split
      · rename_i fresh
        exact ⟨_, .created absent fresh _, .refl⟩
      · exact ⟨_, .unapplied _, .refl⟩
    · rename_i stored present
      split
      · rename_i mutable
        exact ⟨_, .merged present mutable _, .refl⟩
      · exact ⟨_, .unapplied _, .refl⟩
  | deleteRoleBinding => exact ⟨_, .undeleted _, .refl⟩
  | forgetRefusal => exact ⟨_, .forgot, .refl⟩
  | rememberRefusal => exact ⟨_, .remembered _, .refl⟩
  | logRefusal => exact ⟨_, .logged, .refl⟩

/-- One pass of the operator, from the start. -/
def firstPass (meanwhile : Option RoleBinding) : BindingState :=
  ((reconcileClientRoleBinding "apps").play (raceHandler meanwhile) ⟨.single none, [], []⟩).2.2

theorem reached_firstPass (meanwhile : Option RoleBinding) :
    BindingRun "apps" (firstPass meanwhile) :=
  .pass .start (play_trace (raceHandler meanwhile) (raceHandler_answers meanwhile) _ _)

theorem created_binding_spared :
    (firstPass none).landed.length = 1 ∧ ∀ l ∈ (firstPass none).landed,
      l.Spares (firstPass none).foreign := by
  refine ⟨by decide +kernel, (foreign_binding_spared_iff _ _ (reached_firstPass none)).mpr ?_⟩
  have nobody : (firstPass none).foreign = [] := by decide +kernel
  intro l _ binding _ foreign
  rw [nobody] at foreign
  contradiction

/-- The user creates the RoleBinding between the operator's read and its apply. -/
theorem userBinding_taken_over :
    BindingRun "apps" (firstPass (some userBinding)) ∧
      userBinding.uid ∈ (firstPass (some userBinding)).foreign ∧
      (firstPass (some userBinding)).landed.map (·.stored) = [some userBinding] ∧
        ours userBinding = false ∧
      (firstPass (some userBinding)).bindings.current ≠ some userBinding :=
  ⟨reached_firstPass _, by decide +kernel, by decide +kernel, by decide +kernel, by decide +kernel⟩

end TunnelOperator.Injection
