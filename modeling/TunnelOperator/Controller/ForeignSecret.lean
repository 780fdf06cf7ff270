import TunnelOperator.Controller.CleanPass
import TunnelOperator.Controller.MintedOnce
import TunnelOperator.Controller.PoolExactness
import TunnelOperator.Controller.StateProofs

/-! A Secret that holds the server's name and is not the server's: a pass finds it by its
name alone and rewrites it, so it is safe only from a server that is not rendered. -/
namespace TunnelOperator.Controller
open Program Resources Pool

section Rendered
variable {faulty : Call → Prop} {req : NamespacedName} {c d : Cluster}

theorem envFromProblem_returned (wg : Wireguard) {sources : List (EnvFromSource × Nat)}
    (run : Trace (clusterEnv faulty) c (envFromProblem wg sources) events (.done none) d) :
    EnvClear c wg (sources.map (·.1)) ∧ d = c := by
  induction sources generalizing events with
  | nil =>
    cases run
    exact ⟨nofun, rfl⟩
  | cons entry rest ih =>
    obtain ⟨src, i⟩ := entry
    have extend : (∀ name, src.secretRef = some name → ∀ secret,
          c.secrets ⟨wg.nameSpace, name⟩ = some secret →
            reservedInKeys src.namePrefix secret.data.keys = "") →
        (∀ {events}, Trace (clusterEnv faulty) c (envFromProblem wg rest) events (.done none) d →
          EnvClear c wg (((src, i) :: rest).map (·.1)) ∧ d = c) := by
      intro here events later
      obtain ⟨clear, same⟩ := ih later
      exact ⟨List.forall_mem_cons.mpr ⟨here, clear⟩, same⟩
    unfold envFromProblem at run
    cases named : src.secretRef with
    | none =>
      simp only [named] at run
      exact extend (by simp [named]) run
    | some name =>
      simp only [named, ask_bind] at run
      obtain ⟨answer, t, _, answered, after, -⟩ := run.call_returned
      have same : t = c := by
        cases effect_of_env answered
        rfl
      subst same
      cases answer with
      | error e =>
        dsimp only at after
        split at after
        · rename_i missing
          have absent := getSecret_notFound answered missing
          exact extend (by simp [named, absent]) after
        · cases after
      | ok secret =>
        dsimp only at after
        split at after
        · rename_i clear
          refine extend ?_ after
          intro other referenced stored present
          obtain rfl := Option.some.inj (named.symm.trans referenced)
          obtain rfl := Option.some.inj ((getSecret_ok answered).symm.trans present)
          exact clear
        · cases after

theorem specProblem_returned (wg : Wireguard)
    (run : Trace (clusterEnv faulty) c (specProblem wg) events (.done none) d) :
    staticProblem wg = none ∧ EnvClear c wg wg.spec.gluetun.envFrom ∧ d = c := by
  unfold specProblem at run
  split at run
  · cases run
  · rename_i passes
    obtain ⟨clear, same⟩ := envFromProblem_returned wg run
    exact ⟨passes, by simpa using clear, same⟩

/-- Only a Wireguard that the operator can render gets beyond the first stage. -/
theorem prepare_renderable
    (run : Trace (clusterEnv faulty) c (prepare req) events (.done (.rendered wg svc)) d) :
    Renderable req wg c := by
  have never : ∀ {program : Reconciler Result} {s events}, ¬ Trace (clusterEnv faulty) s
      (program >>= fun result => pure (Prepared.ended result)) events
        (.done (.rendered wg svc)) d := by
    intro program s events ends
    obtain ⟨_, _, _, _, -, last, -⟩ := ends.bind_returned
    cases last
  simp only [prepare, ask_bind] at run
  obtain ⟨answer, t, _, answered, run, -⟩ := run.call_returned
  have same : t = c := by
    cases effect_of_env answered
    rfl
  subst same
  cases answer with
  | error e =>
    dsimp only at run
    split at run
    · obtain ⟨_, _, _, _, -, last, -⟩ := run.bind_returned
      cases last
    · cases run
  | ok found =>
    dsimp only at run
    split at run
    · exact absurd run never
    · rename_i started
      obtain ⟨problem, s, _, _, checking, applying, -⟩ := run.bind_returned
      cases problem with
      | some problem => exact absurd applying never
      | none =>
        obtain ⟨spec, clear, rfl⟩ := specProblem_returned found checking
        obtain ⟨answer, u, _, applied, ending, -⟩ := applying.call_returned
        cases answer with
        | error e => exact absurd ending never
        | ok service =>
          obtain rfl : service = assigned s found := by
            cases applied
            rfl
          dsimp only at ending
          split at ending
          · exact absurd ending never
          · rename_i inside
            cases ending
            exact ⟨⟨getWireguard_ok answered, spec, clear, inside⟩, started⟩

/-- And a pass that gets no further writes no Secret. -/
theorem unrendered_secrets (unrendered : ∀ wg, ¬ Renderable req wg c)
    (run : Trace (clusterEnv faulty) c (reconcile publicHalf req) events outcome d) :
    d.secrets req = c.secrets req := by
  have spares : ∀ {events outcome d}, Trace (clusterEnv faulty) c (prepare req) events outcome d →
      d.secrets req = c.secrets req := by
    intro events outcome d preparing
    have safe : (prepare req).Safe (fun _ _ => True)
        (WritesSecret (fun _ => False) fun _ => False) _ :=
      prepare_safe (permits_writesSecret _ _) req fun _ _ _ _ _ _ _ _ => trivial
    exact (secrets_trace req (· = c.secrets req) preparing safe (by simp) (by simp) (by simp) rfl).2
  rw [reconcile_eq] at run
  rcases run.bind_cases with ⟨first, -⟩ | ⟨_, first, -⟩ | ⟨prepared, t, _, _, first, run, -⟩
  · exact spares first
  · exact spares first
  · cases prepared with
    | ended result => cases run <;> exact spares first
    | rendered wg svc => exact absurd (prepare_renderable first) (unrendered wg)

end Rendered

/-! A server that is rendered writes another state for one peer than for none. -/

section Populations

/-- The cluster with other peers. -/
def Cluster.inhabited (c : Cluster) (peers : List WireguardPeer)
    (distinct : (peers.map (·.key)).Nodup) : Cluster :=
  { c with peers := peers, distinct := distinct }

theorem renderable_inhabited {peers : List WireguardPeer} {distinct : (peers.map (·.key)).Nodup} :
    Renderable req wg (c.inhabited peers distinct) ↔ Renderable req wg c :=
  ⟨fun ⟨⟨stored, spec, env, inside⟩, started⟩ => ⟨⟨stored, spec, env, inside⟩, started⟩,
    fun ⟨⟨stored, spec, env, inside⟩, started⟩ => ⟨⟨stored, spec, env, inside⟩, started⟩⟩

/-- A client in the server's own namespace. -/
def client (wg : Wireguard) : WireguardPeer where
  name := "client"
  nameSpace := wg.nameSpace
  generation := 1
  creationTimestamp := 0
  spec := ⟨firstKey, wg.name, wg.nameSpace⟩
  status := .empty

theorem client_admitted (wg : Wireguard) : refusal wg (client wg) = none := by
  have home : namespaceNotAllowed wg (client wg) = none := by
    unfold namespaceNotAllowed
    split
    · rfl
    · rw [if_pos (.inr rfl)]
  have keyed : admissionProblem (client wg) = admissionProblem
      (samplePeer "client" 0 firstKey) := by
    simp only [admissionProblem, client, samplePeer]
    rfl
  rw [refusal, home, keyed]
  decide +kernel

theorem client_served (reads : Ipam.Reads (effectivePeerCIDR4 wg) range) (current : ListedKeys) :
    ∃ served, (plan wg current [client wg]).served = [served] := by
  have blank : clearUnusable (effectivePeerCIDR4 wg) (client wg) = client wg :=
    if_neg fun held => held.1 rfl
  have candidate : candidates wg current [client wg] = [client wg] := by
    have admissible : admissible wg [client wg] = [client wg] := by
      simp [admissible, client_admitted]
    simp only [candidates, cleared, keyHolders, admissible, dedupePublicKeys,
      dedupeAddresses, dedupe, Election.keep_singleton, List.map_cons, List.map_nil, blank]
  have alone : addressHolders [client wg] = [] := rfl
  have room : (unused (rangeTexts range)
      (Ipam.getUsedIPs (effectivePeerCIDR4 wg) [client wg])).length =
        2 ^ (32 - range.bits) - 2 := by
    refine (unused_length reads ?_ (alone ▸ List.nodup_nil)).trans (by rw [alone]; rfl)
    intro peer member
    obtain rfl := List.mem_singleton.mp member
    exact .inl rfl
  have wide : 2 ^ 2 ≤ 2 ^ (32 - range.bits) :=
    Nat.pow_le_pow_right (by decide) (by have := range.roomy; omega)
  have empty : (client wg).status.address = "" := rfl
  rw [Plan.served, plan, candidate]
  simp only [allot, if_pos empty, allocateIP_unused reads]
  cases free : unused (rangeTexts range) (Ipam.getUsedIPs (effectivePeerCIDR4 wg) [client wg]) with
  | nil =>
    rw [free] at room
    simp only [List.length_nil] at room
    omega
  | cons ip rest => exact ⟨_, rfl⟩

end Populations

section Pass
variable {publicHalf : Wgtypes.Key → Wgtypes.Key} {faulty : Call → Prop} {req : NamespacedName}
  {c : Cluster}

/-- What every pass that reaches the Secret would leave in it. -/
theorem spared_current (renderable : Renderable req wg c) (stored : c.secrets req = some secret)
    (spared : ∀ d, Pass publicHalf faulty req c d →
      (d.secrets req).map (·.data) = some secret.data) : ∃ items, items.Perm c.peers ∧
      secret.data.stateJSON = some (.marshal (desiredState wg (secret.data.privateKey.getD "")
        (plan wg (secretKeys secret) (relatedPeers req items)).served)) := by
  let played := (reconcile publicHalf req).play (apiserver nothingLost) c
  have run : Trace (clusterEnv NoFault) c
      (reconcile publicHalf req) played.1 played.2.1 played.2.2 :=
    play_trace _ (apiserver_answers nothingLost_may) _ c
  obtain ⟨items, passed⟩ := clean_pass renderable stored ⟨_, play_whole _ _ _, run⟩
  refine ⟨items, passed.permuted, ?_⟩
  have weaken : ∀ {s request answer t}, clusterEnv NoFault s request answer t →
      clusterEnv faulty s request answer t := by
    intro s request answer t answered
    cases answer with
    | ok reply => exact answered
    | error e => exact answered.imp id fun fault => fault.1.elim
  have kept := spared _ ⟨_, _, run.mono weaken⟩
  rw [passed.secrets, Function.update_self, Option.map_some, Option.some.injEq, keptSecret] at kept
  split at kept
  · assumption
  · rename_i stale
    exact absurd (congrArg SecretData.stateJSON kept).symm stale

/-- The data of a Secret of the server's name survive every pass, whatever peers there are,
exactly if the server is not rendered. Who controls the Secret makes no difference. -/
theorem foreign_secret_spared_iff (publicHalf : Wgtypes.Key → Wgtypes.Key) (faulty : Call → Prop)
    (req : NamespacedName) (c : Cluster) (secret : Secret) (stored : c.secrets req = some secret) :
    (∀ peers distinct d, Pass publicHalf faulty req (c.inhabited peers distinct) d →
      (d.secrets req).map (·.data) = some secret.data) ↔ ∀ wg, ¬ Renderable req wg c := by
  constructor
  · intro spared wg renderable
    have named : wg.key = req := c.named renderable.stored
    have renders : ∀ peers distinct, Renderable req wg (c.inhabited peers distinct) :=
      fun _ _ => renderable_inhabited.mpr renderable
    have current := fun peers distinct =>
      spared_current (renders peers distinct) stored (spared peers distinct)
    obtain ⟨range, reads⟩ := (checkedSpec renderable.spec).range
    obtain ⟨none, permuted, deserted⟩ := current [] List.nodup_nil
    obtain ⟨one, permuted', populated⟩ := current [client wg] (List.nodup_singleton _)
    obtain rfl := List.perm_nil.mp permuted
    obtain rfl := List.perm_singleton.mp permuted'
    have ours : relatedPeers req [client wg] = [client wg] := by
      have names : gatewayKey (client wg) = req := by
        rw [← named, gatewayKey, client]
        simp only [ite_self]
        rfl
      simp [relatedPeers, names]
    obtain ⟨served, lists⟩ := client_served reads (secretKeys secret)
    rw [ours, lists] at populated
    have same : desiredState wg _ [] = desiredState wg _ [served] :=
      StateText.marshal.inj (Option.some.inj (deserted.symm.trans populated))
    have listed : rendered served ∈ (desiredState wg (secret.data.privateKey.getD "") []).peers :=
      same ▸ mem_desiredState.mpr ⟨served, List.mem_singleton_self _, rfl⟩
    simp [mem_desiredState] at listed
  · intro unrendered peers distinct d pass
    obtain ⟨events, outcome, run⟩ := pass
    rw [unrendered_secrets (fun wg renders => unrendered wg (renderable_inhabited.mp renders)) run]
    exact congrArg (Option.map (·.data)) stored

end Pass
/-! Secrets under the server's own name, with the environment its gluetun takes from them. -/

section Borrowing

def credentials (data : List (String × String)) : Secret where
  name := "gw"
  nameSpace := "vpn"
  labels := []
  controller := none
  data := ⟨none, none, none, data⟩

def borrowingServer : Wireguard :=
  { sampleServer with
    spec := { sampleServer.spec with gluetun := ⟨[], [⟨"", some "gw", none⟩], .empty⟩ } }

def borrowingCluster (secret : Secret) : Cluster where
  wireguards := fun key => if key = borrowingServer.key then some borrowingServer else none
  secrets := fun key => if key = borrowingServer.key then some secret else none
  clusterIPs := fun _ => "10.96.0.10"
  peers := []
  named := fun stored => Cluster.named_ite stored rfl nofun
  distinct := List.nodup_nil

/-- The Secret sets a variable that the operator renders, which stops the server. -/
def firewallSettings : Secret := credentials [("FIREWALL_INPUT_PORTS", "443")]

theorem firewallSettings_unrendered (wg : Wireguard) :
    ¬ Renderable borrowingServer.key wg (borrowingCluster firewallSettings) := by
  intro renderable
  obtain rfl : borrowingServer = wg := Option.some.inj (renderable.stored.symm.trans rfl).symm
  exact absurd (renderable.env _ (List.mem_singleton_self _) "gw" rfl firewallSettings rfl)
    (by decide)

theorem firewallSettings_spared :
    firewallSettings.controller ≠ some borrowingServer.key ∧
      ((afterPass nothingLost borrowingServer.key (borrowingCluster firewallSettings)).secrets
        borrowingServer.key).map (·.data) = some firewallSettings.data := by
  refine ⟨nofun, ?_⟩
  have spared := (foreign_secret_spared_iff (fun _ => drawnPublicKey)
    (fun _ => False) borrowingServer.key
    (borrowingCluster firewallSettings) firewallSettings rfl).mpr firewallSettings_unrendered
  exact spared [] List.nodup_nil _ (pass_afterPass nothingLost nothingLost_may _ _)

/-- Provider credentials. -/
def login : Secret := credentials [("OPENVPN_PASSWORD", "hunter2"), ("OPENVPN_USER", "alice")]

/-- One pass replaces the credentials by the server's state, under empty keys. -/
theorem credentials_overwritten :
    (borrowingCluster login).secrets borrowingServer.key = some login ∧
    login.controller ≠ some borrowingServer.key ∧
    ∃ d, Pass (fun _ => drawnPublicKey) (fun _ => False) borrowingServer.key
      (borrowingCluster login) d ∧
      (d.secrets borrowingServer.key).map (fun stored =>
          (stored.data.keys, stored.data.privateKey, stored.controller)) =
        some (["state.json", "privateKey", "publicKey"], some "", some borrowingServer.key) := by
  refine ⟨rfl, nofun, _, pass_afterPass nothingLost nothingLost_may _ _, ?_⟩
  decide +kernel

end Borrowing
end TunnelOperator.Controller
