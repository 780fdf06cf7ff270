import TunnelOperator.Controller.GatewayProofs
import TunnelOperator.Controller.PassProofs

/-! What a pass does to the Secrets: it writes its own server's only, and the state it
writes lists the peers its plan serves. -/
namespace TunnelOperator.Controller
open Program Resources

section
variable {faulty : Call → Prop} {publicHalf : Wgtypes.Key → Wgtypes.Key}

/-- Carrying a plan out issues its writes, touches no Secret and returns what the plan
serves. -/
theorem execute_trace {p : Plan}
    (run : Trace (clusterEnv faulty) d (execute cidr4 p) events outcome e) :
    e.secrets = d.secrets ∧ (∀ event ∈ events, Writes (p.writes cidr4) event.1) ∧
      ∀ admitted, outcome = .done admitted → Returns p.allotments admitted := by
  have kept : ∀ {s request answer t}, Writes (p.writes cidr4) request →
      clusterEnv faulty s request answer t → s.secrets = d.secrets → True ∧
        t.secrets = d.secrets := by
    rintro s request answer t ⟨write, -, rfl⟩ answered same
    cases effect_of_env answered with
    | none => exact ⟨trivial, same⟩
    | peerStatus => exact ⟨trivial, same⟩
  exact run.safe (execute_safe p) kept rfl

/-- The calls of the last stage that write a Secret. -/
def WritesSecret (create update : Secret → Prop) : Call → Prop
  | .createSecret secret => create secret
  | .updateSecret secret => update secret
  | _ => True

theorem permits_writesSecret (create update : Secret → Prop) :
    Permits (WritesSecret create update) := by
  constructor <;> intros <;> trivial

/-- One server's Secret changes, and to a value the calls are allowed to write. -/
theorem secrets_trace {create update : Secret → Prop} {program : Reconciler α} {post : α → Prop}
    (server : NamespacedName) (known : Option Secret → Prop)
    (run : Trace (clusterEnv faulty) c program events outcome c')
    (safe : program.Safe (fun _ _ => True) (WritesSecret create update) post)
    (named : ∀ secret, create secret ∨ update secret → secret.key = server)
    (creates : ∀ secret, known none → create secret → known (some secret))
    (updates : ∀ secret, update secret → known (some secret)) (initial : known (c.secrets server)) :
    (∀ key, key ≠ server → c'.secrets key = c.secrets key) ∧ known (c'.secrets server) := by
  let Holds := fun s : Cluster => (∀ key, key ≠ server → s.secrets key = c.secrets key) ∧
    known (s.secrets server)
  have put : ∀ {s : Cluster} {secret : Secret}, Holds s → secret.key = server →
      known (some secret) →
      Holds (s.setSecret secret) := by
    rintro s secret ⟨others, -⟩ rfl holds
    refine ⟨fun key other => ?_, by simpa [Cluster.setSecret] using holds⟩
    simpa [Cluster.setSecret, other] using others key other
  have step : ∀ {s request answer t}, WritesSecret create update request →
      clusterEnv faulty s request answer t → Holds s → True ∧ Holds t := by
    intro s request answer t allowed answered before
    refine ⟨trivial, ?_⟩
    cases effect_of_env answered with
    | none => exact before
    | peerStatus => exact before
    | wireguardStatus => exact before
    | @created secret free =>
      have here := named secret (.inl allowed)
      have none : known none := by
        rw [← free, here]
        exact before.2
      exact put before here (creates secret none allowed)
    | @updated secret _ => exact put before (named secret (.inr allowed)) (updates secret allowed)
  exact (run.safe safe step ⟨fun _ _ => rfl, initial⟩).1

/-- The last stage leaves the Secret as it found it, refreshes it under the keys it
holds, or mints it. -/
theorem serve_secrets {wg : Wireguard} {svc : Service}
    (run : Trace (clusterEnv faulty) c (serve publicHalf wg svc admitted) events outcome c') :
    (∀ key, key ≠ wg.key → c'.secrets key = c.secrets key) ∧
    (c'.secrets wg.key = c.secrets wg.key ∨
      (∃ secret, c.secrets wg.key = some secret ∧
        c'.secrets wg.key = some (refreshed wg secret admitted)) ∨
      (c.secrets wg.key = none ∧
        ∃ key, c'.secrets wg.key = some (minted publicHalf wg key admitted))) := by
  rw [serve, ask_bind] at run
  cases run with
  | cut => exact ⟨fun _ _ => rfl, .inl rfl⟩
  | @call _ _ answer d _ _ _ _ answered rest =>
    have same : d = c := by
      cases effect_of_env answered
      rfl
    subst same
    cases answer with
    | ok secret =>
      have stored := getSecret_ok answered
      have permits := permits_writesSecret (fun _ => False) (· = refreshed wg secret admitted)
      obtain ⟨others, ours⟩ := secrets_trace wg.key
        (fun s => s = some secret ∨ s = some (refreshed wg secret admitted)) rest
        ((syncSecret_safe permits.unguarded wg secret admitted rfl).bind
          fun _ _ => publish_safe permits wg svc secret admitted fun _ _ => trivial)
        (by rintro _ (⟨⟨⟩⟩ | rfl); rfl) (by rintro _ - ⟨⟩) (by rintro _ rfl; exact .inr rfl)
        (.inl stored)
      refine ⟨others, ?_⟩
      rcases ours with kept | written
      · exact .inl (kept.trans stored.symm)
      · exact .inr (.inl ⟨secret, stored, written⟩)
    | error e =>
      dsimp only at rest
      split at rest
      · rename_i missing
        have absent := getSecret_notFound answered missing
        have permits := permits_writesSecret
          (fun s => ∃ key, s = minted publicHalf wg key admitted) fun _ => False
        obtain ⟨others, ours⟩ := secrets_trace wg.key
          (fun s => s = none ∨ ∃ key, s = some (minted publicHalf wg key admitted)) rest
          (mintSecret_safe permits.generatePrivateKey publicHalf wg admitted fun key => ⟨key, rfl⟩)
          (by rintro _ (⟨key, rfl⟩ | ⟨⟨⟩⟩); rfl) (by rintro _ - ⟨key, rfl⟩; exact .inr ⟨key, rfl⟩)
          (by rintro _ ⟨⟩) (.inl absent)
        refine ⟨others, ?_⟩
        rcases ours with kept | ⟨key, written⟩
        · exact .inl (kept.trans absent.symm)
        · exact .inr (.inr ⟨absent, key, written⟩)
      · cases rest <;> exact ⟨fun _ _ => rfl, .inl rfl⟩

/-- The write is to a peer of the server `req`. -/
def OwnWrite (c : Cluster) (req : NamespacedName) (write : WireguardPeer) : Prop :=
  ∃ stored ∈ c.peers, gatewayKey stored = req ∧ write.object = stored.object

/-- The calls of a pass for a Wireguard that is gone. -/
def MarksMissing (c : Cluster) (req : NamespacedName) (request : Call) : Prop :=
  Quiet request ∨ ∃ write, OwnWrite c req write ∧ request = .updatePeerStatus write

theorem permits_marksMissing (c : Cluster) (req : NamespacedName) :
    Permits (MarksMissing c req) := by
  constructor <;> intros <;> exact .inl trivial

theorem gatewayKey_of_object {first second : WireguardPeer} (same : first.object = second.object) :
    gatewayKey first = gatewayKey second := by
  have objects : ∀ p : WireguardPeer, gatewayKey p.object = gatewayKey p := fun _ => rfl
  rw [← objects, same, objects]

/-- What a cluster with the specs of `c` answers while the Wireguard is gone. -/
def Gone (c : Cluster) (req : NamespacedName) : (request : Call) → Answer request → Prop
  | .getWireguard key, .ok _ => key ≠ req
  | .listPeers, .ok items => ∀ peer ∈ items, ∃ stored ∈ c.peers, stored.object = peer.object
  | _, _ => True

/-- A pass for a Wireguard that is gone marks its peers and writes no Secret. -/
theorem missing_trace {req : NamespacedName} (missing : c.wireguards req = none)
    (run : Trace (clusterEnv faulty) c (reconcile publicHalf req) events outcome c') :
    c'.secrets = c.secrets ∧ ∀ event ∈ events, MarksMissing c req event.1 := by
  have step : ∀ {s request answer t}, MarksMissing c req request →
      clusterEnv faulty s request answer t →
      SameSpecs c s ∧ s.secrets = c.secrets → Gone c req request answer ∧ SameSpecs c t ∧
        t.secrets = c.secrets := by
    rintro s request answer t allowed answered ⟨specs, secrets⟩
    refine ⟨?_, specs.trans (effect_of_env answered).sameSpecs, ?_⟩
    · unfold Gone
      split
      · rename_i key _
        intro same
        have stored := specs.wireguards key
        rw [getWireguard_ok answered, same, missing] at stored
        contradiction
      · intro peer member
        exact specs.symm.stored ((listPeers_ok answered).mem_iff.mp member)
      · trivial
    · rcases allowed with quiet | ⟨write, -, rfl⟩
      · cases effect_of_env answered with
        | none => exact secrets
        | peerStatus => exact secrets
        | wireguardStatus => exact secrets
        | created _ => exact quiet.elim
        | updated _ => exact quiet.elim
      · cases effect_of_env answered with
        | none => exact secrets
        | peerStatus => exact secrets
  have safe : (reconcile publicHalf req).Safe (Gone c req) (MarksMissing c req) fun _ => True := by
    rw [reconcile_eq]
    refine (prepare_safe (permits_marksMissing c req) req ?_).bind fun prepared known => ?_
    · intro _ items listed peer member ours write written
      obtain ⟨stored, inside, same⟩ := listed peer member
      refine .inr ⟨write, ⟨stored, inside, (gatewayKey_of_object same).trans ours, ?_⟩, rfl⟩
      rw [same, notReadyWrite_some written]
      rfl
    · cases prepared with
      | ended result => trivial
      | rendered wg svc => exact absurd rfl (known wg svc rfl).1
  obtain ⟨⟨-, secrets⟩, calls, -⟩ := run.safe safe step ⟨.refl c, rfl⟩
  exact ⟨secrets, calls⟩

/-- The spec of a Wireguard that is rendered was checked. -/
theorem Renders.checked (renders : Renders wg svc) (same : wg.object = found.object) :
    CheckedSpec found := by
  have static : ∀ w : Wireguard, staticProblem w.object = staticProblem w := fun _ => rfl
  apply checkedSpec
  rw [← static, ← same, static]
  exact renders.spec

theorem state_of_secrets {c c' : Cluster} (same : c'.secrets server = c.secrets server) :
    c'.state server = c.state server := by
  simp [Cluster.state, same]

/-- The last stage leaves the state as it found it or writes the one for what was
admitted. -/
theorem serve_state {wg : Wireguard} {svc : Service}
    (run : Trace (clusterEnv faulty) c (serve publicHalf wg svc admitted) events outcome c') :
    (∀ server, server ≠ wg.key → c'.state server = c.state server) ∧
    (c'.state wg.key = c.state wg.key ∨
      ∃ privateKey, c'.state wg.key = some (desiredState wg privateKey admitted)) := by
  obtain ⟨others, ours⟩ := serve_secrets run
  refine ⟨fun server other => state_of_secrets (others server other), ?_⟩
  rcases ours with same | ⟨secret, -, written⟩ | ⟨-, key, written⟩
  · exact .inl (state_of_secrets same)
  · exact .inr ⟨_, by simp [Cluster.state, written, refreshed, secretForWireguard, StateText.unmarshal]; rfl⟩
  · exact .inr ⟨_, by simp [Cluster.state, written, minted, secretForWireguard, StateText.unmarshal]; rfl⟩

theorem desiredState_of_object {first second : Wireguard} (same : first.object = second.object)
    (privateKey : String) (admitted : List WireguardPeer) :
    desiredState first privateKey admitted = desiredState second privateKey admitted := by
  have objects : ∀ w : Wireguard, desiredState w.object privateKey admitted =
      desiredState w privateKey admitted :=
    fun _ => rfl
  rw [← objects, same, objects]

/-- The state a pass leaves: as it was, or what its plan returned. -/
theorem pass_state (pass : Pass publicHalf faulty req c c') :
    (∀ server, server ≠ req → c'.state server = c.state server) ∧
    (c'.state req = c.state req ∨ ∃ found items admitted privateKey,
      c.wireguards req = some found ∧ CheckedSpec found ∧ List.Perm items c.peers ∧
      Returns (plan found (c.listed req) (relatedPeers req items)).allotments admitted ∧
      c'.state req = some (desiredState found privateKey admitted)) := by
  obtain ⟨events, outcome, run⟩ := pass
  have unchanged : c'.secrets = c.secrets → ∀ server, c'.state server = c.state server :=
    fun same server => state_of_secrets (congrFun same server)
  cases stored : c.wireguards req with
  | none =>
    have same := unchanged (missing_trace stored run).1
    exact ⟨fun server _ => same server, .inl (same req)⟩
  | some found =>
    cases pass_shape stored run with
    | early untouched _ =>
      have same := unchanged untouched.secrets
      exact ⟨fun server _ => same server, .inl (same req)⟩
    | stopped _ _ _ _ _ _ _ untouched _ carried _ _ =>
      have same := unchanged ((execute_trace carried).1.trans untouched.secrets)
      exact ⟨fun server _ => same server, .inl (same req)⟩
    | served wg svc items d e admitted same renders permuted untouched quiet carried serving =>
      obtain ⟨kept, -, returns⟩ := execute_trace carried
      have secrets : e.secrets = c.secrets := kept.trans untouched.secrets
      have before : ∀ server, e.state server = c.state server :=
        fun server => state_of_secrets (congrFun secrets server)
      have named : wg.key = req := (key_of_wireguard same).trans (c.named stored)
      obtain ⟨others, ours⟩ := serve_state serving
      rw [named] at others ours
      refine ⟨fun server other => (others server other).trans (before server), ?_⟩
      rcases ours with kept | ⟨privateKey, written⟩
      · exact .inl (kept.trans (before req))
      · refine .inr ⟨found, items, admitted, privateKey, rfl, renders.checked same, permuted,
          returns admitted rfl, ?_⟩
        rw [written, desiredState_of_object same]

end
end TunnelOperator.Controller
