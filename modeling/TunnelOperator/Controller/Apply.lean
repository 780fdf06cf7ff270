import TunnelOperator.Api
import TunnelOperator.Library.Program
import TunnelOperator.Library.Register
import TunnelOperator.Standard.Csaupgrade
import Mathlib.Data.Finset.Insert
import Mathlib.Logic.Relation

/-! internal/controller/apply.go and applyDeployment: how a rendered object gets into the
cluster, and the apiserver it is applied to. A field is a path and its value a text. -/
namespace TunnelOperator.Controller
open Program Csaupgrade
open ManagedObject (Applied Updated Patched)

abbrev FieldPath := List String
abbrev LiveObject := ManagedObject FieldPath String
abbrev RenderedObject := Configuration FieldPath String

def fieldManager : String := "tunnel-operator"

/-- The one member of legacyFieldManagers. -/
def legacyFieldManager : String := "manager"

/-- The kinds of the objects that are applied. -/
inductive Kind where
  | service | deployment
  deriving DecidableEq

def Kind.string : Kind → String
  | .service => "Service"
  | .deployment => "Deployment"

/-- The object that is applied, by its kind, the version of its API and its name. -/
structure Target where
  kind : Kind
  apiVersion : String
  key : NamespacedName

def Target.string (target : Target) : String := target.kind.string ++ " " ++ target.key.string

/-- A merge patch sets some fields and removes others. -/
inductive Write where
  | patchManagedFields (entries : List (Entry FieldPath)) (resourceVersion : Nat)
  | mergePatch (written : RenderedObject) (removed : List FieldPath)
  | apply (obj : RenderedObject)

/-- The calls about one object. -/
inductive ApplyCall where
  | get
  | write (w : Write)

abbrev ApplyReply : ApplyCall → Type
  | .get => Nat × LiveObject
  | .write _ => LiveObject

abbrev ApplyAnswer (request : ApplyCall) : Type := Except ApiError (ApplyReply request)

abbrev Applying := Program ApplyCall ApplyAnswer ApiError

/-- An error is returned with what was attempted in front of it. -/
def orFail (text : String) : Except ApiError α → Applying α
  | .ok value => .done value
  | .error e => .fail (e.wrap text)

def strategyType : FieldPath := ["spec", "strategy", "type"]

def rollingUpdate : FieldPath := ["spec", "strategy", "rollingUpdate"]

/-- The block and the two fields it can have. -/
def rollingUpdatePaths : List FieldPath :=
  [rollingUpdate, rollingUpdate ++ ["maxSurge"], rollingUpdate ++ ["maxUnavailable"]]

def LiveObject.rollingUpdateSet (live : LiveObject) : Bool :=
  rollingUpdatePaths.any fun p => (live.value p).isSome

def recreateStrategy : RenderedObject := ⟨{strategyType}, fun _ => "Recreate"⟩

/-- A live Deployment that has the block gets a merge patch without it first. -/
def clearRollingUpdate (target : Target) : Applying Unit := do
  match ← ask .get with
  | .error e =>
    if e.isNotFound then return ()
    else .fail (e.wrap ("read Deployment " ++ target.key.string ++ " for the strategy migration: "))
  | .ok (_, live) =>
    if LiveObject.rollingUpdateSet live then
      let answer ← ask (.write (.mergePatch recreateStrategy rollingUpdatePaths))
      orFail ("clear rollingUpdate on Deployment " ++ target.key.string ++ ": ")
        (answer.map fun _ => ())
    else return ()

def forceApply (target : Target) (obj : RenderedObject) : Applying LiveObject := do
  let answer ← ask (.write (.apply obj))
  orFail ("apply " ++ target.string ++ ": ") answer

section Migrates
variable (upgrade : Upgrade FieldPath String legacyFieldManager fieldManager)

/-- What applyOwned does with a live object before the apply: the legacy manager's fields
become the operator's. -/
def migrateLive (target : Target) (resourceVersion : Nat) (live : LiveObject) : Applying Unit :=
  match upgrade.patch live resourceVersion with
  | .error e => .fail ⟨.other, "compute field-manager migration for " ++ target.string ++ ": " ++ e⟩
  | .ok none => return ()
  | .ok (some (entries, version)) => do
    let answer ← ask (.write (.patchManagedFields entries version))
    orFail ("migrate field managers on " ++ target.string ++ ": ") (answer.map fun _ => ())

def migrateFieldManagers (target : Target) : Applying Unit := do
  match ← ask .get with
  | .error e =>
    if e.isNotFound then return ()
    else .fail (e.wrap ("read " ++ target.string ++ " for field-manager migration: "))
  | .ok (resourceVersion, live) => migrateLive upgrade target resourceVersion live

def applyOwned (target : Target) (obj : RenderedObject) : Applying LiveObject := do
  migrateFieldManagers upgrade target
  forceApply target obj

def applyDeployment (target : Target) (dep : RenderedObject) : Applying LiveObject := do
  clearRollingUpdate target
  applyOwned upgrade target dep

/-- What Reconcile calls for an object of this kind. -/
def applyRendered (target : Target) (obj : RenderedObject) : Applying LiveObject :=
  match target.kind with
  | .service => applyOwned upgrade target obj
  | .deployment => applyDeployment upgrade target obj

end Migrates

theorem orFail_trace {env : Environment ApplyCall ApplyAnswer S} {answer : Except ApiError α}
    {outcome : Outcome ApiError α} (run : Trace env s (orFail text answer) events outcome t) :
    t = s ∧ (∀ value, outcome = .done value → answer = .ok value) ∧
      ∀ e, outcome = .fail e → ∃ e', answer = .error e' ∧ e = e'.wrap text := by
  cases answer with
  | ok value =>
    cases run with
    | done => exact ⟨rfl, fun _ same => by cases same; rfl, fun _ same => by contradiction⟩
    | cut => exact ⟨rfl, fun _ same => by contradiction, fun _ same => by contradiction⟩
  | error e =>
    cases run with
    | fail => exact ⟨rfl, fun _ same => by contradiction, fun _ same => by cases same; exact ⟨e, rfl, rfl⟩⟩
    | cut => exact ⟨rfl, fun _ same => by contradiction, fun _ same => by contradiction⟩

/-! The apiserver. -/

/-- The object with every version of it, read through a cache that lags. The number of a
version is its place. -/
abbrev ObjectStore := Register (Option LiveObject)

/-- An apiserver that keeps field managers: what it may store for a write, defaults
included, what passes its validation and what it says of what does not. What it counts and
reports by itself, such as the generation and the status, is not among the fields. -/
structure ObjectServer where
  defaulted : FieldPath → Prop
  applied (name apiVersion : String) (cfg : RenderedObject) (old new : LiveObject) : Prop
  applies : applied name apiVersion cfg old new → Applied defaulted name apiVersion cfg old new
  updated (who : Manager) (old new : LiveObject) : Prop
  updates : updated who old new → Updated defaulted who old new
  patched (who : Manager) (written : RenderedObject) (removed : List FieldPath)
    (old new : LiveObject) : Prop
  patches : patched who written removed old new → Patched defaulted who written removed old new
  valid : (FieldPath → Option String) → Prop
  refuses : (FieldPath → Option String) → ApiError → Prop

namespace ObjectServer

/-- What a write starts from. -/
def base (r : ObjectStore) : LiveObject := r.current.getD .empty

theorem base_of_current {r : ObjectStore} (here : r.current = some live) : base r = live := by
  rw [base, here, Option.getD_some]

/-- Writes of anybody but the operator, by any manager but its two. -/
inductive OtherWrite (server : ObjectServer) (r : ObjectStore) : ObjectStore → Prop where
  | update (name apiVersion subresource : String)
      (other : ¬ (name = legacyFieldManager ∧ subresource = ""))
      (updated : server.updated (updater name apiVersion subresource) (base r) o)
      (stores : r.Stores (some o) r') :
      OtherWrite server r r'
  | apply (name apiVersion : String) (obj : RenderedObject) (other : name ≠ fieldManager)
      (applied : server.applied name apiVersion obj (base r) o) (stores : r.Stores (some o) r') :
      OtherWrite server r r'
  | delete (stores : r.Stores none r') : OtherWrite server r r'

def Interference (server : ObjectServer) : ObjectStore → ObjectStore → Prop :=
  Relation.ReflTransGen server.OtherWrite

/-- What the server is to store for a write of the operator. A patch of the managed fields
is for the version it was computed from, and a merge patch is an update by the name of the
operator's binary. -/
inductive Asks (server : ObjectServer) (target : Target) (r : ObjectStore) :
    Write → LiveObject → Prop where
  | migrated (here : r.current = some old) (pinned : version + 1 = r.versions.length)
      (same : new.entries = entries)
      (value : new.value = old.value) :
      Asks server target r (.patchManagedFields entries version) new
  | merged (here : r.current = some old)
      (patched : server.patched
        (updater legacyFieldManager target.apiVersion "") written removed old new) :
      Asks server target r (.mergePatch written removed) new
  | applied (applied : server.applied fieldManager target.apiVersion obj (base r) new) :
      Asks server target r (.apply obj) new

/-- The write changes the fields themselves. -/
def changesFields : Write → Bool
  | .patchManagedFields .. => false
  | .mergePatch .. | .apply _ => true

/-- A write that is answered with an error may have landed, unless the object is invalid. -/
inductive Answers (server : ObjectServer) (target : Target) (r : ObjectStore) :
    (request : ApplyCall) → ApplyAnswer request → ObjectStore → Prop where
  | read (reads : r.Reads (some live) r') : Answers server target r .get (.ok (r'.seen, live)) r'
  | absent (reads : r.Reads none r') (missing : e.isNotFound = true) :
    Answers server target r .get (.error e) r'
  | unread (found : e.isNotFound = false) (fault : e.isInvalid = false) :
    Answers server target r .get (.error e) r
  | stored (asks : server.Asks target r w new)
      (valid : changesFields w = true → server.valid new.value)
      (stores : r.Stores (some new) r') (answer : ApplyAnswer (.write w))
      (honest : ∀ reply, answer = .ok reply → reply = new)
      (fault : ∀ e, answer = .error e → e.isInvalid = false) :
      Answers server target r (.write w) answer r'
  | refused (w : Write) (e : ApiError)
      (reason : e.isInvalid = true → ∃ new, server.Asks target r w new ∧
        server.refuses new.value e) :
      Answers server target r (.write w) (.error e) r

/-- Others may write before each call. -/
def env (server : ObjectServer) (target : Target) (between : ObjectStore → ObjectStore → Prop) :
    Environment ApplyCall ApplyAnswer ObjectStore :=
  fun r request answer r' => ∃ m, between r m ∧ server.Answers target m request answer r'

/-- The ends of a program that reads the object and goes on with what it is shown: with an
error, without an object, or with the end of what follows. -/
inductive GetEnds (server : ObjectServer) (target : Target)
    (between : ObjectStore → ObjectStore → Prop) (next : Nat → LiveObject → Applying Unit)
    (r : ObjectStore) : Outcome ApiError Unit → ObjectStore → Prop where
  | stopped : GetEnds server target between next r .cut r
  | failed (moves : between r r') (unfinished : outcome ≠ .done ())
      (fault : ∀ e, outcome = .fail e → e.isInvalid = false) :
      GetEnds server target between next r outcome r'
  | absent (moves : between r m) (reads : m.Reads none r') (unfailed : ∀ e, outcome ≠ .fail e) :
      GetEnds server target between next r outcome r'
  | live (moves : between r m) (reads : m.Reads (some live) t)
      (run : Trace (server.env target between) t (next t.seen live) events outcome r') :
      GetEnds server target between next r outcome r'

/-- The ends of a program that writes and hands on the answer: what was asked for is
stored, whatever the answer, or nothing is. -/
inductive WriteEnds (server : ObjectServer) (target : Target)
    (between : ObjectStore → ObjectStore → Prop) (w : Write) (result : LiveObject → α)
    (r : ObjectStore) : Outcome ApiError α → ObjectStore → Prop where
  | stopped : WriteEnds server target between w result r .cut r
  | stored (moves : between r m) (asks : server.Asks target m w new)
      (valid : changesFields w = true → server.valid new.value) (stores : m.Stores (some new) r')
      (returned : ∀ value, outcome = .done value → value = result new)
      (fault : ∀ e, outcome = .fail e → e.isInvalid = false) :
      WriteEnds server target between w result r outcome r'
  | refused (moves : between r r') (unfinished : ∀ value, outcome ≠ .done value)
      (reason : ∀ e, outcome = .fail e → e.isInvalid = true → ∃ new cause text,
        server.Asks target r' w new ∧ server.refuses new.value cause ∧ e = cause.wrap text) :
      WriteEnds server target between w result r outcome r'

section Ends
variable {server : ObjectServer} {target : Target} {between : ObjectStore → ObjectStore → Prop}
  {r r' : ObjectStore}

theorem get_ends {next : Nat → LiveObject → Applying Unit} {outcome : Outcome ApiError Unit}
    (run : Trace (server.env target between) r (do
      match ← ask ApplyCall.get with
      | .error e => if e.isNotFound then return () else .fail (e.wrap text)
      | .ok (version, live) => next version live : Applying Unit) events outcome r') :
    GetEnds server target between next r outcome r' := by
  simp only [ask_bind, pure_eq] at run
  rcases run.call_cases with ⟨-, rfl, rfl⟩ | ⟨answer, t, rest, ⟨m, moves, answered⟩, run, -⟩
  · exact .stopped
  cases answered with
  | read reads => exact .live moves reads run
  | absent reads missing =>
    simp only [missing, if_true] at run
    cases run with
    | done | cut => exact .absent moves reads fun _ same => by contradiction
  | unread found fault =>
    simp only [found, Bool.false_eq_true, if_false] at run
    cases run with
    | fail => exact .failed moves (by simp) fun e same => Outcome.fail.inj same ▸ fault
    | cut => exact .failed moves (by simp) fun _ same => by contradiction

theorem write_ends {answered : Except ApiError LiveObject → Except ApiError α}
    {result : LiveObject → α} {outcome : Outcome ApiError α}
    (maps : ∀ answer, answered answer = answer.map result)
    (run : Trace (server.env target between) r (do
      let answer ← ask (ApplyCall.write w)
      orFail text (answered answer) : Applying α) events outcome r') :
    WriteEnds server target between w result r outcome r' := by
  simp only [ask_bind, maps] at run
  rcases run.call_cases with ⟨-, rfl, rfl⟩ | ⟨answer, t, rest, ⟨m, moves, answers⟩, last, -⟩
  · exact .stopped
  obtain ⟨rfl, returned, failed⟩ := orFail_trace last
  cases answers with
  | stored asks valid stores _ honest fault =>
    refine .stored moves asks valid stores (fun value done => ?_) fun e same => ?_
    · cases answer with
      | ok reply => rw [← Except.ok.inj (returned value done), honest reply rfl]
      | error e => cases returned value done
    · obtain ⟨cause, told, rfl⟩ := failed e same
      cases answer with
      | ok reply => cases told
      | error e => exact Except.error.inj told ▸ fault e rfl
  | refused _ e reason =>
    refine .refused moves (fun value done => by cases returned value done) fun e' same invalid => ?_
    obtain ⟨cause, told, rfl⟩ := failed e' same
    obtain rfl := Except.error.inj told
    obtain ⟨new, asks, refuses⟩ := reason invalid
    exact ⟨new, e, _, asks, refuses, rfl⟩

theorem forceApply_ends {outcome : Outcome ApiError LiveObject}
    (run : Trace (server.env target between) r (forceApply target obj) events outcome r') :
    WriteEnds server target between (.apply obj) id r outcome r' :=
  write_ends (fun answer => by cases answer <;> rfl) run

/-- What an apply that returns has stored. -/
theorem WriteEnds.returned {outcome : Outcome ApiError LiveObject}
    (ends : WriteEnds server target between (.apply obj) id r outcome r')
    (done : outcome = .done reply) : ∃ m, between r m ∧ server.Asks target m (.apply obj) reply ∧
      server.valid reply.value ∧ r'.current = some reply := by
  cases ends with
  | stopped => contradiction
  | stored moves asks valid stores returned =>
    obtain rfl := returned reply done
    exact ⟨_, moves, asks, valid rfl, stores.current⟩
  | refused _ unfinished => exact absurd done (unfinished reply)

end Ends
end ObjectServer
end TunnelOperator.Controller
