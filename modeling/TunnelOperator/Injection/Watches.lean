import TunnelOperator.Injection.ForeignBinding

/-! The events that bring a namespace back to the reconciler: a pod's update inside the
cache's filter is dropped, everything else is queued. -/
namespace TunnelOperator.Injection
open Program

inductive WatchEvent where
  | create | update | delete
  deriving DecidableEq, Repr

/-- The label selector of CacheOptions. -/
def cached (pod : Pod) : Bool := pod.labels.at labelEnabled = "true"

/-- The event of a change to one pod, seen through the cache. -/
def delivered (before after : Option Pod) : Option WatchEvent :=
  match before.filter cached, after.filter cached with
  | none, some _ => some .create
  | some _, none => some .delete
  | some _, some _ => some .update
  | none, none => none

/-- The predicate of SetupWithManager's pod watch: its UpdateFunc returns false. -/
def podPredicate : WatchEvent → Bool
  | .update => false
  | _ => true

def enqueues (before after : Option Pod) : Bool := (delivered before after).any podPredicate

/-- A namespace and whether a request for it waits in the queue. -/
structure Space where
  pods : List Pod
  binding : Option RoleBinding
  queued : Bool

def Space.matching (s : Space) (labels : Labels) : List Pod :=
  s.pods.filter fun pod => cached pod && labels.all fun (key, value) => pod.labels.at key = value

/-- What clientRoleBindingAction is told by a fresh list. -/
def Space.needed (ns : String) (s : Space) : Bool :=
  needsClientRoleBinding ns (s.matching [(labelEnabled, "true")])

/-- What holds the name is the operator's. -/
def Space.Own (s : Space) : Prop := s.binding.all ours = true

/-- One pod is created, deleted or relabelled, or the RoleBinding changes; it stays the
operator's. An update that is dropped has to be one that `permits` allows. -/
inductive Change (permits : Space → Space → Prop) (s : Space) : Space → Prop where
  | pod {front back : List Pod} {before after : Option Pod}
      (here : s.pods = front ++ before.toList ++ back)
      (same : ∀ old new, before = some old → after = some new → new.name = old.name)
      (permitted : delivered before after = some .update →
        permits s { s with pods := front ++ after.toList ++ back }) :
      Change permits s { s with
        pods := front ++ after.toList ++ back
        queued := s.queued || enqueues before after }
  | binding (own : after.all ours = true) :
    Change permits s { s with binding := after, queued := true }

abbrev Changes (permits : Space → Space → Prop) := Relation.ReflTransGen (Change permits)

/-- Fresh reads, and writes that land when they succeed. An apply that changes nothing
makes no event. -/
inductive FreshAnswers (ns : String) (s : Space) :
    (request : BindingCall) → BindingAnswer request → Space → Prop where
  | listed : FreshAnswers ns s (.listPods ns labels) (.ok (s.matching labels)) s
  | unlisted (e : ApiError) : FreshAnswers ns s (.listPods nameSpace labels) (.error e) s
  | got : FreshAnswers ns s (.getRoleBinding (clientRoleKey ns)) (orNotFound s.binding) s
  | unread (fault : e.isNotFound = false) : FreshAnswers ns s (.getRoleBinding key) (.error e) s
  | created (absent : s.binding = none) (uid : String) :
      FreshAnswers ns s (.applyForced binding) (.ok ())
        { s with binding := some { binding with uid := uid }, queued := true }
  | merged (present : s.binding = some stored) (mutable : stored.roleRef = binding.roleRef) :
      FreshAnswers ns s (.applyForced binding) (.ok ())
        { s with binding := some (applied stored binding), queued := s.queued ||
          applied stored binding ≠ stored }
  | unapplied (e : ApiError) : FreshAnswers ns s (.applyForced binding) (.error e) s
  | deleted (present : s.binding = some stored) (same : stored.uid = uid) :
      FreshAnswers ns s (.deleteRoleBinding key uid) (.ok ())
        { s with binding := none, queued := true }
  | gone (absent : s.binding = none) (missing : e.isNotFound = true) :
      FreshAnswers ns s (.deleteRoleBinding key uid) (.error e) s
  | undeleted (fault : e.isNotFound = false) :
    FreshAnswers ns s (.deleteRoleBinding key uid) (.error e) s
  | forgot : FreshAnswers ns s (.forgetRefusal nameSpace) () s
  | remembered (seen : Bool) : FreshAnswers ns s (.rememberRefusal nameSpace) seen s
  | logged : FreshAnswers ns s (.logRefusal nameSpace) () s

def FreshEnv (ns : String) (permits : Space → Space → Prop) :
    Environment BindingCall BindingAnswer Space :=
  fun s request answer t => ∃ u, FreshAnswers ns s request answer u ∧ Changes permits u t

/-- From any start of the operator on, when the pods in the cache and the RoleBinding come
as create events. A request leaves the queue when its pass starts, and comes back when the
pass fails. -/
inductive SpaceRun (ns : String) (permits : Space → Space → Prop) : Space → Prop where
  | start (own : binding.all ours = true) :
      SpaceRun ns permits ⟨pods, binding, pods.any cached || binding.isSome⟩
  | changed (before : SpaceRun ns permits s) (change : Change permits s t) : SpaceRun ns permits t
  | pass (before : SpaceRun ns permits s) (due : s.queued = true)
      (meanwhile : Changes permits { s with queued := false } u)
      (run : Trace (FreshEnv ns permits) u (reconcileClientRoleBinding ns) events (.done ()) t) :
      SpaceRun ns permits t
  | failed (before : SpaceRun ns permits s) (due : s.queued = true)
      (meanwhile : Changes permits { s with queued := false } u)
      (run : Trace (FreshEnv ns permits) u (reconcileClientRoleBinding ns) events (.fail e) t) :
      SpaceRun ns permits { t with queued := true }

/-- The update leaves the answer of needsClientRoleBinding as it is. -/
def Steady (ns : String) (s t : Space) : Prop := t.needed ns = s.needed ns

end TunnelOperator.Injection
