import TunnelOperator.Library.Register
import TunnelOperator.Controller.Conditions
import Mathlib.Algebra.Order.Ring.Int
import Mathlib.Data.Int.ConditionallyCompleteOrder
import Mathlib.Order.WithBot

/-! One Wireguard whose spec may be edited before any call, read through a cache that
lags, with status writes that the apiserver refuses unless they are made over the
newest version. -/
namespace TunnelOperator.Controller
open Program Resources

abbrev ServerRegister := Register Wireguard

/-- A user's edit of the spec, which the apiserver counts in metadata.generation. -/
def editSpec (r : ServerRegister) (spec : WireguardSpec) : ServerRegister :=
  r.write { r.current with spec := spec, generation := r.current.generation + 1 }

/-- A call that has nothing to do with the Wireguard `gw`. -/
def OtherServer (gw : NamespacedName) : Call → Prop
  | .getWireguard key => key ≠ gw
  | .updateWireguardStatus wg => wg.key ≠ gw
  | _ => True

/-- `landed` is the resourceVersion check: the copy read last is the newest version. A
write that is answered with an error may have landed. All other calls, the Deployment's
apply among them, are answered in any way. -/
inductive ServerEnv (gw : NamespacedName) :
    ServerRegister → (request : Call) → Answer request → ServerRegister → Prop where
  | edited (spec : WireguardSpec) (later : ServerEnv gw (editSpec r spec) request answer r') :
      ServerEnv gw r request answer r'
  | cached (reads : r.Reads wg r') : ServerEnv gw r (.getWireguard gw) (.ok wg) r'
  | unread (e : ApiError) : ServerEnv gw r (.getWireguard gw) (.error e) r
  | landed (ours : wg.key = gw) (newest : r.seen + 1 = r.versions.length)
      (answer : Answer (.updateWireguardStatus wg)) :
      ServerEnv gw r (.updateWireguardStatus wg) answer
        (r.write { r.current with status := wg.status })
  | refused (e : ApiError) : ServerEnv gw r (.updateWireguardStatus wg) (.error e) r
  | other (unrelated : OtherServer gw request) : ServerEnv gw r request answer r

/-- What happens to the register while no status is written. -/
inductive Drifts : ServerRegister → ServerRegister → Prop where
  | refl : Drifts r r
  | edited (spec : WireguardSpec) (later : Drifts (editSpec r spec) r') : Drifts r r'
  | read (reads : r.Reads wg u) (later : Drifts u r') : Drifts r r'

/-- The generation the Ready condition was recorded for, if there is one. -/
def readyGeneration (wg : Wireguard) : WithBot Int :=
  (readyCondition wg.status).map (·.observedGeneration)

/-- Some pass has written the status. -/
def started (wg : Wireguard) : Bool := wg.status.status ≠ ""

/-- Neither of the two conditions that a first report leaves out. -/
structure Bare (status : WireguardStatus) : Prop where
  ready : readyCondition status = none
  degraded : degradedCondition status = none

/-- Generations and what Ready says of them only grow, and Ready never speaks of a
generation that no pass has read. Before a pass has read a status there is none but
Progressing. -/
structure Chronicle (gw : NamespacedName) (r : ServerRegister) : Prop where
  named : ∀ wg ∈ r.versions, wg.key = gw
  ages : r.Grows (·.generation)
  starts : r.Grows started
  observed : r.Grows readyGeneration
  dated : readyGeneration r.current ≤ (r.lastRead.generation : WithBot Int)
  young : r.lastRead.status.status = "" → Bare r.current.status

section
variable {gw : NamespacedName} {r r' u : ServerRegister}

theorem Drifts.trans (first : Drifts r u) (second : Drifts u r') : Drifts r r' := by
  induction first with
  | refl => exact second
  | edited spec later ih => exact .edited spec (ih second)
  | read reads later ih => exact .read reads (ih second)

theorem editSpec_status (r : ServerRegister) (spec : WireguardSpec) :
    (editSpec r spec).current.status = r.current.status := by
  rw [editSpec, Register.current_write]

/-- Versions that come with an edit have the status that was there. -/
theorem Drifts.versions (drifts : Drifts r r') :
    ∃ more, r'.versions = r.versions ++ more ∧ ∀ wg ∈ more, wg.status = r.current.status := by
  induction drifts with
  | refl => exact ⟨[], by simp, by simp⟩
  | @edited r r' spec later ih =>
    obtain ⟨more, same, status⟩ := ih
    refine ⟨_ :: more, same.trans (List.append_assoc ..),
      List.forall_mem_cons.mpr ⟨rfl, fun wg member => ?_⟩⟩
    rw [status wg member, editSpec_status]
  | read reads later ih =>
    obtain ⟨more, same, status⟩ := ih
    exact ⟨more, reads.versions ▸ same, reads.current ▸ status⟩

theorem Drifts.status (drifts : Drifts r r') : r'.current.status = r.current.status := by
  induction drifts with
  | refl => rfl
  | edited spec later ih => rw [ih, editSpec_status]
  | read reads later ih => rw [ih, reads.current]

theorem readyGeneration_congr (same : wg.status = wg'.status) : readyGeneration wg =
    readyGeneration wg' := by
  rw [readyGeneration, same, readyGeneration]

theorem started_congr (same : wg.status = wg'.status) : started wg = started wg' := by
  rw [started, same, started]

/-- A copy without a status is older than any that has one. -/
theorem unset_of_started_le (order : started wg ≤ started wg') (unset : wg'.status.status = "") :
    wg.status.status = "" := by
  by_contra set
  have later : true ≤ false := by simpa [started, unset, set] using order
  exact absurd later (by decide)

theorem Chronicle.editSpec (chronicle : Chronicle gw r) (spec : WireguardSpec) :
    Chronicle gw (editSpec r spec) := by
  have same : readyGeneration (Controller.editSpec r spec).current = readyGeneration r.current :=
    readyGeneration_congr (editSpec_status r spec)
  constructor
  case named =>
    intro wg member
    rcases Register.mem_write.mp member with old | rfl
    · exact chronicle.named wg old
    · exact chronicle.named r.current r.current_mem
  case ages => exact chronicle.ages.write (Int.le_add_one le_rfl)
  case starts => exact chronicle.starts.write (le_of_eq (started_congr rfl))
  case observed => exact chronicle.observed.write (by rw [← same, Controller.editSpec, Register.current_write])
  case dated =>
    rw [same, Controller.editSpec, Register.lastRead_write]
    exact chronicle.dated
  case young =>
    rw [editSpec_status, Controller.editSpec, Register.lastRead_write]
    exact chronicle.young

theorem Chronicle.read (chronicle : Chronicle gw r) (reads : r.Reads wg r') : Chronicle gw r' where
  named := reads.versions ▸ chronicle.named
  ages := chronicle.ages.reads reads
  starts := chronicle.starts.reads reads
  observed := chronicle.observed.reads reads
  dated := by
    rw [reads.current, reads.lastRead]
    exact le_trans chronicle.dated (WithBot.coe_le_coe.mpr (chronicle.ages.lastRead_le reads))
  young := by
    rw [reads.current, reads.lastRead]
    exact fun unset => chronicle.young
      (unset_of_started_le (chronicle.starts.lastRead_le reads) unset)

theorem Chronicle.drifts (chronicle : Chronicle gw r) (drifts : Drifts r r') : Chronicle gw r' := by
  induction drifts with
  | refl => exact chronicle
  | edited spec later ih => exact ih (chronicle.editSpec spec)
  | read reads later ih => exact ih (chronicle.read reads)

/-- What only grows from version to version has grown at the last read. -/
theorem Drifts.lastRead_le {β : Type} [Preorder β] {f : Wireguard → β}
    (grows : ∀ {u}, Chronicle gw u → u.Grows f) (drifts : Drifts r r')
    (chronicle : Chronicle gw r) :
    f r.lastRead ≤ f r'.lastRead := by
  induction drifts with
  | refl => exact le_rfl
  | edited spec later ih =>
    have order := ih (chronicle.editSpec spec)
    rwa [editSpec, Register.lastRead_write] at order
  | read reads later ih =>
    have order := ih (chronicle.read reads)
    rw [reads.lastRead] at order
    exact le_trans ((grows chronicle).lastRead_le reads) order

/-- A report about a generation that has been read and that Ready is not ahead of. -/
theorem Chronicle.report (chronicle : Chronicle gw r) (set : status.status ≠ "")
    (forward : readyGeneration r.current ≤ readyGeneration { r.current with status := status })
    (known : readyGeneration { r.current with status := status } ≤
      (r.lastRead.generation : WithBot Int))
    (young : r.lastRead.status.status = "" → Bare status) :
    Chronicle gw (r.write { r.current with status := status }) := by
  constructor
  case named =>
    intro wg member
    rcases Register.mem_write.mp member with old | rfl
    · exact chronicle.named wg old
    · exact chronicle.named r.current r.current_mem
  case ages => exact chronicle.ages.write le_rfl
  case starts => exact chronicle.starts.write (by simp [started, set])
  case observed => exact chronicle.observed.write forward
  case dated => rwa [Register.current_write, Register.lastRead_write]
  case young => rwa [Register.current_write, Register.lastRead_write]

/-! The calls of a pass. -/

theorem ServerEnv.drifts (answered : ServerEnv gw r request answer r')
    (spares : SparesStatus request) :
    Drifts r r' := by
  induction answered with
  | edited spec later ih => exact .edited spec (ih spares)
  | cached reads => exact .read reads .refl
  | unread | refused | other => exact .refl
  | landed => exact spares.elim

theorem drifts_of_spares {program : Reconciler α}
    (run : Trace (ServerEnv gw) r program events outcome r')
    (spares : ∀ event ∈ events, SparesStatus event.1) : Drifts r r' := by
  induction run with
  | done | fail | cut => exact .refl
  | call answered rest ih =>
    obtain ⟨first, later⟩ := List.forall_mem_cons.mp spares
    exact (answered.drifts first).trans (ih later)

/-- A read answers with the version it leaves as the last one read. A status write lands
on the version read last or not at all. -/
def ServerEffect (gw : NamespacedName) (r r' : ServerRegister) :
  (request : Call) → Answer request → Prop
  | .getWireguard key, .ok wg => key = gw → r'.lastRead = wg
  | .updateWireguardStatus wg, _ => ∃ v, Drifts r v ∧ (r' = v ∨
      wg.key = gw ∧ v.current = r.lastRead ∧ r' = v.write { v.current with status := wg.status })
  | _, _ => True

theorem ServerEnv.effect (answered : ServerEnv gw r request answer r') :
    ServerEffect gw r r' request answer := by
  induction answered with
  | @edited r request answer r' spec later ih =>
    cases request with
    | getWireguard key => cases answer <;> exact ih
    | updateWireguardStatus wg =>
      obtain ⟨v, drifts, ended⟩ := ih
      rw [editSpec, Register.lastRead_write] at ended
      exact ⟨v, .edited spec drifts, ended⟩
    | _ => trivial
  | cached reads => exact fun _ => reads.lastRead
  | unread => trivial
  | landed ours newest => exact ⟨_, .refl, .inr ⟨ours, (Register.lastRead_newest newest).symm, rfl⟩⟩
  | refused => exact ⟨_, .refl, .inl rfl⟩
  | @other request r answer unrelated =>
    cases request with
    | getWireguard key =>
      cases answer with
      | error e => trivial
      | ok wg => exact fun same => absurd same unrelated
    | updateWireguardStatus wg => exact ⟨r, .refl, .inl rfl⟩
    | _ => trivial

end
end TunnelOperator.Controller
