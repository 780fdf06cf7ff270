import TunnelOperator.Library.Wakeup
import TunnelOperator.Sidecar.Agreement
import TunnelOperator.Sidecar.Peer

/-! internal/sidecar/sidecar.go: the loop of Run, and the watch that wakes it. The watch
cache holds the pod's own WireguardPeer or nothing. Every add, update and delete of it
sends on a channel of capacity one and does not wait. -/
namespace TunnelOperator.Sidecar
open Program

variable (publicHalf : Wgtypes.Key → Wgtypes.Key) (cfg : Config) (key : Wgtypes.Key)

/-- Reads are served by the cache, which has synced. Writes go to the API and the tunnel
to the kernel, and end in any way. -/
def CacheAnswers (cache : Option OwnedPeer) : (request : SidecarCall) → SidecarAnswer request → Prop
  | .getPeer _, .ok obj => cache = some obj
  | .getPeer _, .error e => cache = none ∧ e.isNotFound = true
  | _, _ => True

abbrev cacheEnv (cache : Option OwnedPeer) : Environment SidecarCall SidecarAnswer Unit :=
  fun _ request answer _ => CacheAnswers cache request answer

abbrev PeerLoop := WakeLoop (Option OwnedPeer) Unit SidecarCall SidecarAnswer StepError Unit

/-- loop makes its first pass at once. The events of the first sync may still be queued. -/
def PeerLoop.start (cache : Option OwnedPeer) (queued : Nat) (kick : Bool) : PeerLoop :=
  ⟨cache, (), queued, kick, .passing () [] (step publicHalf cfg key)⟩

abbrev PeerLoop.Step : PeerLoop → PeerLoop → Prop :=
  WakeLoop.Step cacheEnv (step publicHalf cfg key)

/-- What a whole pass does for what the cache shows. -/
inductive PassFor (cache : Option OwnedPeer) : List (Event SidecarCall SidecarAnswer) →
    Outcome StepError Unit → Prop where
  | registered (absent : cache = none) (missing : SidecarAnswer (.getPeer cfg.key))
      (answer : SidecarAnswer (.createPeer (desiredPeer cfg (publicHalf key).string))) :
      PassFor cache [⟨.getPeer cfg.key, missing⟩,
        ⟨.createPeer (desiredPeer cfg (publicHalf key).string), answer⟩] outcome
  | refused (there : cache = some obj)
      (decided : decidePeer cache (desiredPeer cfg (publicHalf key).string) = .refuse) :
      PassFor cache [⟨.getPeer cfg.key, .ok obj⟩]
        (.fail (.unowned ("WireguardPeer " ++ cfg.key.string ++
        " exists and no Pod controls it, so this pod cannot register under its name")))
  | replaced (there : cache = some obj)
      (decided : decidePeer cache (desiredPeer cfg (publicHalf key).string) = .replace)
      (answer : SidecarAnswer (.deletePeer cfg.key obj.uid))
      (rest : List (Event SidecarCall SidecarAnswer))
      (creates : ∀ event ∈ rest, event.1 = .createPeer (desiredPeer cfg (publicHalf key).string)) :
      PassFor cache (⟨.getPeer cfg.key, .ok obj⟩ :: ⟨.deletePeer cfg.key obj.uid, answer⟩ :: rest)
        outcome
  | unpublished (there : cache = some obj)
      (decided : decidePeer cache (desiredPeer cfg (publicHalf key).string) = .keep)
      (lacking : desiredTunnel obj.peer = .error e) :
      PassFor cache [⟨.getPeer cfg.key, .ok obj⟩] (.fail (.tunnel e))
  | applied (there : cache = some obj)
      (decided : decidePeer cache (desiredPeer cfg (publicHalf key).string) = .keep)
      (wants : desiredTunnel obj.peer = .ok t) (answer : SidecarAnswer (.apply key t)) :
      PassFor cache [⟨.getPeer cfg.key, .ok obj⟩, ⟨.apply key t, answer⟩]
        (match answer with | .ok _ => .done () | .error message => .fail (.datapath message))

section Pass
variable {publicHalf cfg key} {cache : Option OwnedPeer}

theorem no_calls {env : Environment SidecarCall SidecarAnswer S} {e : StepError}
    {outcome : Outcome StepError Unit}
    (run : Trace env s (.fail e : Registrar Unit) events outcome t) (whole : outcome ≠ .cut) :
    events = [] ∧ outcome = .fail e := by
  cases run with
  | fail => exact ⟨rfl, rfl⟩
  | cut => contradiction

/-- A pass that creates its peer calls nothing after it. -/
theorem createWanted_calls {want : OwnedPeer} {e : StepError} {outcome : Outcome StepError Unit}
    (run : Trace (cacheEnv cache) ()
      (createWanted cfg.key want >>= fun _ => (.fail e : Registrar Unit)) events outcome t)
    (whole : outcome ≠ .cut) : ∃ answer, events = [⟨.createPeer want, answer⟩] := by
  simp only [createWanted, ask_bind, call_bind] at run
  obtain ⟨answer, u, rest, -, after, rfl⟩ := run.call_inv whole
  refine ⟨answer, ?_⟩
  have ended : rest = [] := by
    cases answer with
    | ok => exact (no_calls after whole).1
    | error err =>
      simp only at after
      split at after
      · exact (no_calls after whole).1
      · exact (no_calls after whole).1
  rw [ended]

theorem deleteStalePeer_calls {obj want : OwnedPeer} {e : StepError}
    {outcome : Outcome StepError Unit}
    (run : Trace (cacheEnv cache) () (deleteStalePeer cfg.key (some obj) >>= fun _ =>
      createWanted cfg.key want >>= fun _ => (.fail e : Registrar Unit)) events outcome t)
    (whole : outcome ≠ .cut) :
    ∃ answer rest, events = ⟨.deletePeer cfg.key obj.uid, answer⟩ :: rest ∧
      ∀ event ∈ rest, event.1 = .createPeer want := by
  simp only [deleteStalePeer, ask_bind, call_bind] at run
  obtain ⟨answer, u, rest, -, after, rfl⟩ := run.call_inv whole
  refine ⟨answer, rest, rfl, ?_⟩
  have creates : ∀ {s}, Trace (cacheEnv cache) s
      (createWanted cfg.key want >>= fun _ => (.fail e : Registrar Unit)) rest outcome t →
      ∀ event ∈ rest, event.1 = .createPeer want := by
    intro s created event member
    obtain ⟨answer, rfl⟩ := createWanted_calls created whole
    rw [List.mem_singleton.mp member]
  cases answer with
  | ok => exact creates after
  | error err =>
    simp only at after
    split at after
    · exact creates after
    · rw [(no_calls after whole).1]
      exact fun event member => absurd member List.not_mem_nil

theorem decidePeer_some (obj want : OwnedPeer) : decidePeer (some obj) want ≠ .create := by
  simp only [decidePeer]
  repeat' split
  all_goals simp

theorem step_passFor {outcome : Outcome StepError Unit}
    (run : Trace (cacheEnv cache) () (step publicHalf cfg key) events outcome t)
    (whole : outcome ≠ .cut) :
    PassFor publicHalf cfg key cache events outcome := by
  simp only [step, ensurePeer, existingPeer, ask_bind, call_bind] at run
  obtain ⟨answer, _, rest, answered, after, rfl⟩ := run.call_inv whole
  cases answer with
  | error e =>
    obtain ⟨absent, missing⟩ := answered
    have decided : decidePeer none (desiredPeer cfg (publicHalf key).string) = .create := rfl
    simp only [missing, if_true, pure_eq, done_bind, decided, Program.bind_assoc] at after
    obtain ⟨answer, rfl⟩ := createWanted_calls after whole
    exact .registered absent _ answer
  | ok obj =>
    cases answered
    simp only [pure_eq, done_bind] at after
    cases decided : decidePeer (some obj) (desiredPeer cfg (publicHalf key).string) with
    | create => exact absurd decided (decidePeer_some _ _)
    | refuse =>
      simp only [decided, fail_bind] at after
      obtain ⟨rfl, rfl⟩ := no_calls after whole
      exact .refused rfl decided
    | replace =>
      simp only [decided, Program.bind_assoc, done_bind] at after
      obtain ⟨answer, rest, rfl, creates⟩ := deleteStalePeer_calls after whole
      exact .replaced rfl decided answer rest creates
    | keep =>
      simp only [decided, done_bind] at after
      cases wants : desiredTunnel obj.peer with
      | error e =>
        simp only [wants] at after
        obtain ⟨rfl, rfl⟩ := no_calls after whole
        exact .unpublished rfl decided wants
      | ok t =>
        simp only [wants] at after
        obtain ⟨answer, _, rest, -, last, rfl⟩ := after.call_inv whole
        cases answer with
        | ok =>
          obtain ⟨rfl, rfl, -⟩ := last.done_inv whole
          exact .applied rfl decided wants (.ok ())
        | error message =>
          obtain ⟨rfl, rfl⟩ := no_calls last whole
          exact .applied rfl decided wants (.error message)

end Pass

/-- When the loop waits and no signal is on its way, its last pass was one for what the
cache shows now. -/
theorem loop_at_rest {s : PeerLoop} (cache : Option OwnedPeer) (queued : Nat) (kick : Bool)
    (run : Relation.ReflTransGen (PeerLoop.Step publicHalf cfg key)
      (.start publicHalf cfg key cache queued kick) s)
    (waits : s.phase = .waiting () events outcome) (down : s.kick = false) (empty : s.queued = 0) :
    PassFor publicHalf cfg key s.value events outcome := by
  obtain ⟨pass, whole⟩ := WakeLoop.settled run rfl waits down empty
  exact step_passFor pass whole

def samplePod : Config := ⟨"gw", "vpn", "web-0", "apps", "7f1c"⟩

def samplePass : Registrar Unit :=
  step (fun _ => Controller.drawnPublicKey) samplePod Controller.drawnKey

/-- The peer of the sample pod as the operator has published it. -/
def publishedPod : OwnedPeer :=
  let registered := desiredPeer samplePod Controller.drawnPublicKey.string
  { registered with peer := { registered.peer with status := { WireguardPeerStatus.empty with
      address := "10.8.0.2", endpoint := "10.96.0.10:51820", serverPublicKey :=
        Controller.drawnPublicKey.string,
      localCIDRs := ["10.96.0.0/12"] } } }

theorem publishedPod_tunnel : ∃ t, desiredTunnel publishedPod.peer = .ok t := by
  have reads : (desiredTunnel publishedPod.peer).isOk = true := by decide +kernel
  cases wants : desiredTunnel publishedPod.peer with
  | ok t => exact ⟨t, rfl⟩
  | error e =>
    rw [wants] at reads
    contradiction

/-- A pod that registers itself and is woken when its peer is published. -/
theorem published_pod_applied : ∃ t answer, desiredTunnel publishedPod.peer = .ok t ∧
    PassFor (fun _ => Controller.drawnPublicKey) samplePod Controller.drawnKey (some publishedPod)
      [⟨.getPeer samplePod.key, .ok publishedPod⟩, ⟨.apply Controller.drawnKey t, answer⟩]
      (.done ()) := by
  obtain ⟨t, wants⟩ := publishedPod_tunnel
  have registers : Trace (cacheEnv none) () samplePass
      [⟨.getPeer samplePod.key, .error Controller.notFound⟩,
        ⟨.createPeer (desiredPeer samplePod Controller.drawnPublicKey.string), .ok ()⟩]
      (.fail (.registered ("waiting for the operator: WireguardPeer apps/web-0 registered"))) () :=
    .call (t := ()) ⟨rfl, rfl⟩ (.call (t := ()) trivial .fail)
  have applies : Trace (cacheEnv (some publishedPod)) () samplePass
      [⟨.getPeer samplePod.key, .ok publishedPod⟩, ⟨.apply Controller.drawnKey t, .ok ()⟩]
      (.done ()) () := by
    have decided : decidePeer (some publishedPod)
        (desiredPeer samplePod Controller.drawnPublicKey.string) = .keep := by
      decide +kernel
    simp only [samplePass, step, ensurePeer, existingPeer, ask_bind, call_bind]
    refine .call (t := ()) rfl ?_
    simp only [pure_eq, done_bind, decided, wants]
    exact .call (t := ()) trivial .done
  have first := WakeLoop.run_pass samplePass registers (by simp) 0 false () []
  have second := WakeLoop.run_pass samplePass applies (by simp) 0 false () []
  have woken := ((first.tail (.change (some publishedPod))).tail (.notify rfl)).tail
    (.kicked rfl rfl)
  exact ⟨t, _, wants, loop_at_rest _ samplePod Controller.drawnKey none 0 false
    (woken.trans second) rfl rfl rfl⟩

end TunnelOperator.Sidecar
