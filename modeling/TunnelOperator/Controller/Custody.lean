import TunnelOperator.Library.Register
import TunnelOperator.Controller.Outcomes
import TunnelOperator.Controller.Apiserver

/-! The Secret of one server under passes that read it through a lagging cache: once it
exists, all its versions hold one key. -/
namespace TunnelOperator.Controller
open Program Resources

/-- The stored Secret of one server, with the versions a cache may still show. -/
abbrev SecretRegister := Register (Option Secret)

/-- A call that has nothing to do with the Secret of `gw`. -/
def Elsewhere (gw : NamespacedName) : (request : Call) → Answer request → Prop
  | .getSecret key, _ => key ≠ gw
  | .createSecret secret, _ => secret.key ≠ gw
  | .updateSecret secret, _ => secret.key ≠ gw
  | .getWireguard key, .ok wg => wg.key = key
  | _, _ => True

/-- Reads of the Secret may lag. A create is refused while the Secret exists and an
update while it does not; a write that is answered with an error may have landed. All
other calls are answered in any way. -/
inductive SecretEnv (gw : NamespacedName) :
    SecretRegister → (request : Call) → Answer request → SecretRegister → Prop where
  | cached (reads : r.Reads entry r') : SecretEnv gw r (.getSecret gw) (orNotFound entry) r'
  | unread (fault : e.isNotFound = false) : SecretEnv gw r (.getSecret gw) (.error e) r
  | created (ours : secret.key = gw) (absent : r.current = none)
      (answer : Answer (.createSecret secret)) :
      SecretEnv gw r (.createSecret secret) answer (r.write (some secret))
  | uncreated (e : ApiError) : SecretEnv gw r (.createSecret secret) (.error e) r
  | updated (ours : secret.key = gw) (present : r.current ≠ none)
      (answer : Answer (.updateSecret secret)) :
      SecretEnv gw r (.updateSecret secret) answer (r.write (some secret))
  | notUpdated (e : ApiError) : SecretEnv gw r (.updateSecret secret) (.error e) r
  | other (unrelated : Elsewhere gw request answer) : SecretEnv gw r request answer r

/-- The Secret holds `key`: its public half beside it and itself in the state. -/
structure HoldsKey (publicHalf : Wgtypes.Key → Wgtypes.Key) (key : Wgtypes.Key) (secret : Secret) :
    Prop where
  privateKey : secret.data.privateKey = some key.string
  publicKey : secret.data.publicKey = some (publicHalf key).string
  state : ∃ state, secret.data.stateJSON = some (.marshal state) ∧
    state.serverPrivateKey = key.string

/-- The Secret exists, and every version of it holds `key`. -/
structure Kept (publicHalf : Wgtypes.Key → Wgtypes.Key) (key : Wgtypes.Key) (r : SecretRegister) :
    Prop where
  stored : r.current ≠ none
  versions : ∀ secret, some secret ∈ r.versions → HoldsKey publicHalf key secret

def Unminted (r : SecretRegister) : Prop := ∀ entry ∈ r.versions, entry = none

section Pass
variable {publicHalf : Wgtypes.Key → Wgtypes.Key} {gw : NamespacedName} {r r' : SecretRegister}
    {key : Wgtypes.Key}

theorem SecretEnv.grows (answered : SecretEnv gw r request answer r') :
    r.versions ⊆ r'.versions := by
  cases answered with
  | cached reads => exact reads.versions ▸ List.Subset.refl _
  | created | updated => exact fun entry member => Register.mem_write.mpr (.inl member)
  | unread | uncreated | notUpdated | other => exact List.Subset.refl _

/-- Every version a run has read is stored when it ends. -/
theorem read_stored {program : Reconciler α}
    (run : Trace (SecretEnv gw) r program events outcome r') :
    r.versions ⊆ r'.versions ∧
      ∀ secret, ⟨.getSecret gw, .ok secret⟩ ∈ events → some secret ∈ r'.versions := by
  induction run with
  | done | fail | cut => exact ⟨List.Subset.refl _, fun _ none => absurd none List.not_mem_nil⟩
  | @call r request answer _ _ _ _ _ answered rest ih =>
    refine ⟨List.Subset.trans answered.grows ih.1, fun secret member => ?_⟩
    rcases List.mem_cons.mp member with here | later
    · obtain ⟨rfl, same⟩ := Sigma.mk.inj here
      obtain rfl := eq_of_heq same
      refine ih.1 (answered.grows ?_)
      generalize reply : (Except.ok secret : Answer (.getSecret gw)) = answer at answered
      cases answered with
      | cached reads =>
        rename_i entry
        cases entry with
        | none => contradiction
        | some found =>
          obtain rfl := Except.ok.inj reply
          exact reads.mem
      | unread => contradiction
      | other unrelated => exact absurd rfl unrelated
    · exact ih.2 secret later

/-- The calls that leave the Secret of `gw` alone. -/
def SparesSecret (gw : NamespacedName) : Call → Prop
  | .createSecret secret => secret.key ≠ gw
  | .updateSecret secret => secret.key ≠ gw
  | _ => True

theorem permits_sparesSecret (gw : NamespacedName) : Permits (SparesSecret gw) := by
  constructor <;> intros <;> trivial

theorem spared_versions {program : Reconciler α}
    (run : Trace (SecretEnv gw) r program events outcome r')
    (spares : ∀ event ∈ events, SparesSecret gw event.1) : r'.versions = r.versions := by
  induction run with
  | done | fail | cut => rfl
  | call answered rest ih =>
    obtain ⟨first, later⟩ := List.forall_mem_cons.mp spares
    rw [ih later]
    cases answered with
    | cached reads => exact reads.versions
    | created ours | updated ours => exact absurd ours first
    | unread | uncreated | notUpdated | other => rfl

/-- A Wireguard is read under its own name. -/
def Named : (request : Call) → Answer request → Prop
  | .getWireguard key, .ok wg => wg.key = key
  | _, _ => True

theorem SecretEnv.named (answered : SecretEnv gw r request answer r') : Named request answer := by
  cases answered with
  | other unrelated =>
    unfold Named
    split
    · exact unrelated
    · trivial
  | cached | unread | created | uncreated | updated | notUpdated => trivial

theorem prepare_spares (req : NamespacedName) :
    (prepare req).Safe Named (SparesSecret gw) fun prepared =>
    ∀ wg svc, prepared = .rendered wg svc → wg.key = req :=
  (prepare_safe (permits_sparesSecret gw) req fun _ _ _ _ _ _ _ _ => trivial).weaken (fun _ => id)
    fun _ prepared wg svc rendered => (prepared wg svc rendered).1

theorem reconcilePeers_spares (req : NamespacedName) (wg : Wireguard) :
    (reconcilePeers req wg).Safe Named (SparesSecret gw) fun _ => True := by
  refine reconcilePeers_safe (permits_sparesSecret gw) req wg fun current items _ _ => ?_
  refine (execute_safe _).weaken ?_ fun _ _ => trivial
  rintro request ⟨write, -, rfl⟩
  trivial

/-- A pass of another server. -/
theorem reconcile_spares (publicHalf : Wgtypes.Key → Wgtypes.Key) (different : req ≠ gw) :
    (reconcile publicHalf req).Safe Named (SparesSecret gw) fun _ => True := by
  rw [reconcile_eq]
  refine (prepare_spares req).bind fun prepared named => ?_
  cases prepared with
  | ended result => trivial
  | rendered wg svc =>
    have apart : wg.key ≠ gw := named wg svc rfl ▸ different
    refine (reconcilePeers_spares req wg).bind fun admitted _ => ?_
    exact serve_safe (permits_sparesSecret gw) publicHalf wg svc admitted (fun _ _ _ _ => trivial)
      (fun _ _ => apart) fun _ => apart

theorem Kept.of_versions (kept : Kept publicHalf key r) (same : r'.versions = r.versions) :
    Kept publicHalf key r' := by
  obtain ⟨versions, seen, bound⟩ := r
  obtain ⟨versions', seen', bound'⟩ := r'
  obtain rfl : versions' = versions := same
  exact ⟨kept.stored, kept.versions⟩

theorem Kept.write (kept : Kept publicHalf key r) (holds : HoldsKey publicHalf key secret) :
    Kept publicHalf key (r.write (some secret)) := by
  refine ⟨by simp, fun other member => ?_⟩
  rcases Register.mem_write.mp member with old | new
  · exact kept.versions other old
  · rwa [Option.some.inj new]

theorem refreshed_holds (holds : HoldsKey publicHalf key secret) (wg : Wireguard)
    (admitted : List WireguardPeer) :
    HoldsKey publicHalf key (refreshed wg secret admitted) := by
  have own : secret.data.privateKey.getD "" = key.string := by
    rw [holds.privateKey, Option.getD_some]
  have public' : secret.data.publicKey.getD "" = (publicHalf key).string := by
    rw [holds.publicKey, Option.getD_some]
  exact ⟨congrArg some own, congrArg some public', _, rfl, own⟩

/-- Once the pass has read the Secret it writes no other key. -/
theorem serve_found (kept : Kept publicHalf key r) (holds : HoldsKey publicHalf key secret)
    (run : Trace (SecretEnv gw) r
      (syncSecret wg secret admitted >>= fun _ => publish wg svc secret admitted)
      events outcome r') : Kept publicHalf key r' := by
  have permits : Permits fun request => ∀ other, request = .updateSecret other ∨
      request = .createSecret other →
      request = .updateSecret (refreshed wg secret admitted) := by
    constructor <;> intros <;> simp_all
  have syncs : (syncSecret wg secret admitted).Safe (fun _ _ => True) _ fun _ => True :=
    syncSecret_safe permits.unguarded wg secret admitted fun _ _ => rfl
  have safe := syncs.bind fun _ _ => publish_safe permits wg svc secret admitted fun _ _ => by simp
  refine (run.safe safe (fun permitted answered before => ⟨trivial, ?_⟩) kept).1
  cases answered with
  | cached reads => exact before.of_versions reads.versions
  | unread | uncreated | notUpdated | other => exact before
  | created =>
    have := permitted _ (.inr rfl)
    contradiction
  | updated =>
    rw [Call.updateSecret.inj (permitted _ (.inl rfl))]
    exact before.write (refreshed_holds holds wg admitted)

/-- A pass that found no Secret creates one, unless it exists by now. -/
theorem serve_missing (run : Trace (SecretEnv gw) r
    (mintSecret publicHalf wg admitted) events outcome r') :
    r'.versions = r.versions ∨
      r.current = none ∧ ∃ key, r' = r.write (some (minted publicHalf wg key admitted)) := by
  simp only [mintSecret, demand, ask_bind, call_bind] at run
  cases run with
  | cut => exact .inl rfl
  | call generated rest =>
    cases generated with
    | other =>
      rename_i answer _
      cases answer with
      | error e =>
        cases rest with
        | fail => exact .inl rfl
        | cut => exact .inl rfl
      | ok key =>
        simp only [pure_eq, done_bind] at rest
        cases rest with
        | cut => exact .inl rfl
        | @call _ _ answer t _ _ _ _ creating ended =>
          have last : r' = t := by cases answer <;> cases ended <;> rfl
          rw [last]
          cases creating with
          | created ours absent => exact .inr ⟨absent, key, rfl⟩
          | uncreated | other => exact .inl rfl

theorem minted_holds (key : Wgtypes.Key) (wg : Wireguard) (admitted : List WireguardPeer) :
    HoldsKey publicHalf key (minted publicHalf wg key admitted) :=
  ⟨rfl, rfl, _, rfl, rfl⟩

theorem read_cases (answered : SecretEnv gw r (.getSecret gw) answer t) : t.versions = r.versions ∧
    ((∃ secret, answer = .ok secret ∧ some secret ∈ r.versions) ∨
      ∃ e, answer = .error e ∧ (e.isNotFound = true → none ∈ r.versions)) := by
  cases answered with
  | cached reads =>
    rename_i entry
    refine ⟨reads.versions, ?_⟩
    cases entry with
    | some secret => exact .inl ⟨secret, rfl, reads.mem⟩
    | none => exact .inr ⟨notFound, rfl, fun _ => reads.mem⟩
  | unread fault => exact ⟨rfl,
    .inr ⟨_, rfl, fun missing => absurd (missing.symm.trans fault) (by decide)⟩⟩
  | other unrelated => exact absurd rfl unrelated

theorem serve_keeps (ours : wg.key = gw)
    (run : Trace (SecretEnv gw) r (serve publicHalf wg svc admitted) events outcome r') :
    (∀ key, Kept publicHalf key r → Kept publicHalf key r') ∧
      (Unminted r → Unminted r' ∨ ∃ key, Kept publicHalf key r') := by
  subst ours
  simp only [serve, ask_bind] at run
  cases run with
  | cut => exact ⟨fun _ => id, .inl⟩
  | @call _ _ answer t _ _ _ _ answered rest =>
    obtain ⟨same, read⟩ := read_cases answered
    have unminted : Unminted r → Unminted t := fun none => by rwa [Unminted, same]
    rcases read with ⟨secret, rfl, found⟩ | ⟨e, rfl, -⟩
    · refine ⟨fun key kept => ?_, fun none => ?_⟩
      · exact serve_found (kept.of_versions same) (kept.versions secret found) rest
      · exact absurd (none _ found) (by simp)
    · dsimp only at rest
      split at rest
      · rcases serve_missing rest with spared | ⟨absent, key, rfl⟩
        · have whole : r'.versions = r.versions := spared.trans same
          exact ⟨fun key kept => kept.of_versions whole,
            fun none => .inl (by rwa [Unminted, whole])⟩
        · refine ⟨fun key kept => absurd absent (kept.of_versions same).stored, fun none => .inr ⟨key, by simp, ?_⟩⟩
          intro secret member
          rcases Register.mem_write.mp member with old | new
          · exact absurd (unminted none _ old) (by simp)
          · rw [Option.some.inj new]
            exact minted_holds key wg admitted
      · have whole : r' = t := by cases rest <;> rfl
        subst whole
        exact ⟨fun key kept => kept.of_versions same, fun none => .inl (unminted none)⟩

/-- A pass, of whatever server and however it ends, keeps the key. -/
theorem pass_keeps (run : Trace (SecretEnv gw) r (reconcile publicHalf req) events outcome r') :
    (∀ key, Kept publicHalf key r → Kept publicHalf key r') ∧
      (Unminted r → Unminted r' ∨ ∃ key, Kept publicHalf key r') := by
  have spared : r'.versions = r.versions → (∀ key, Kept publicHalf key r → Kept publicHalf key r') ∧
      (Unminted r → Unminted r' ∨ ∃ key, Kept publicHalf key r') := fun same =>
    ⟨fun key kept => kept.of_versions same, fun none => .inl (by rwa [Unminted, same])⟩
  by_cases ours : req = gw
  · rw [reconcile_eq] at run
    have quiet : ∀ {α} {program : Reconciler α} {post : α → Prop} {u v events outcome},
        program.Safe Named (SparesSecret gw) post →
          Trace (SecretEnv gw) u program events outcome v →
        v.versions = u.versions ∧ ∀ value, outcome = .done value → post value := by
      intro α program post u v events outcome safe part
      obtain ⟨calls, returns⟩ := part.safe_of_expected safe SecretEnv.named
      exact ⟨spared_versions part calls, returns⟩
    rcases run.bind_cases with ⟨part, rfl⟩ | ⟨error, part, rfl⟩ | ⟨prepared, t, _, _, part, rest, -⟩
    · exact spared (quiet (prepare_spares req) part).1
    · exact spared (quiet (prepare_spares req) part).1
    · obtain ⟨same, named⟩ := quiet (prepare_spares req) part
      cases prepared with
      | ended result =>
        have last : r' = t := by cases rest <;> rfl
        exact spared (last ▸ same)
      | rendered wg svc =>
        have owned : wg.key = gw := (named _ rfl wg svc rfl).trans ours
        rcases rest.bind_cases with ⟨peers, rfl⟩ | ⟨error, peers, rfl⟩
          | ⟨admitted, u, _, _, peers, serving, -⟩
        · exact spared ((quiet (reconcilePeers_spares req wg) peers).1.trans same)
        · exact spared ((quiet (reconcilePeers_spares req wg) peers).1.trans same)
        · have before : u.versions = r.versions :=
            (quiet (reconcilePeers_spares req wg) peers).1.trans same
          obtain ⟨keeps, mints⟩ := serve_keeps owned serving
          exact ⟨fun key kept => keeps key (kept.of_versions before),
            fun none => mints (by rwa [Unminted, before])⟩
  · exact spared (spared_versions run
      (run.safe_of_expected (reconcile_spares publicHalf ours) SecretEnv.named).1)

end Pass
end TunnelOperator.Controller
