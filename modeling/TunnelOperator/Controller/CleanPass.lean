import TunnelOperator.Controller.CleanCalls
import TunnelOperator.Controller.Conditions

/-! What a whole clean pass does: the peers are written as planned and synced, and the
Secret keeps its keys and carries the peers served. -/
namespace TunnelOperator.Controller
open Program Resources

section Stages
variable {c d e : Cluster}

theorem touchPods_clean {pods : List Pod}
    (run : Trace (clusterEnv NoFault) c (touchPods pods) events outcome d)
    (whole : outcome ≠ .cut) :
    outcome = .done () ∧ d = c ∧ peerWrites events = [] := by
  induction pods generalizing events with
  | nil =>
    obtain ⟨rfl, rfl, rfl⟩ := run.done_inv whole
    exact ⟨rfl, rfl, rfl⟩
  | cons pod rest ih =>
    simp only [touchPods, ask_bind] at run
    obtain ⟨reply, c', tail, served, after, rfl⟩ := call_clean run whole (by rintro e ⟨⟩)
    cases served
    obtain ⟨ended, same, silent⟩ := ih after
    exact ⟨ended, same, silent⟩

/-- What the identity write makes of the peers that do not carry it yet. -/
def syncs (wg : Wireguard) (id : ServerIdentity) (admitted : List WireguardPeer) :
    List WireguardPeer :=
  (admitted.filter fun peer => !carriesIdentity wg id peer).map (withIdentity wg id)

theorem syncPeerIdentity_clean {wg : Wireguard} {id : ServerIdentity}
    {admitted : List WireguardPeer} (stored : ∀ peer ∈ admitted, ∃ q ∈ c.peers, q.key = peer.key)
    (run : Trace (clusterEnv NoFault) c (syncPeerIdentity wg id admitted) events outcome d)
    (whole : outcome ≠ .cut) :
    outcome = .done () ∧ d = c.applyAll (syncs wg id admitted) ∧
      peerWrites events = syncs wg id admitted := by
  induction admitted generalizing c events with
  | nil =>
    obtain ⟨rfl, rfl, rfl⟩ := run.done_inv whole
    exact ⟨rfl, rfl, rfl⟩
  | cons peer rest ih =>
    have others : ∀ writes, ∀ q ∈ rest, ∃ p ∈ (c.applyAll writes).peers, p.key = q.key :=
      fun writes q member => stored_applyAll (stored q (List.mem_cons_of_mem _ member)) writes
    unfold syncPeerIdentity at run
    by_cases carries : carriesIdentity wg id peer = true
    · rw [if_pos carries] at run
      have skipped : syncs wg id (peer :: rest) = syncs wg id rest := by simp [syncs, carries]
      rw [skipped]
      exact ih (others []) run
    · rw [if_neg carries] at run
      simp only [ask_bind] at run
      obtain ⟨tail, rfl, after⟩ :=
        write_first reliable_noFault run whole (stored peer List.mem_cons_self)
      have written : syncs wg id (peer :: rest) = withIdentity wg id peer :: syncs wg id rest := by
        simp [syncs, carries]
      obtain ⟨ended, rfl, writes⟩ := ih (others [withIdentity wg id peer]) after
      rw [written]
      exact ⟨ended, rfl, congrArg (withIdentity wg id peer :: ·) writes⟩

/-- The Secret after a pass that read `secret`. -/
def keptSecret (wg : Wireguard) (secret : Secret) (admitted : List WireguardPeer) : Secret :=
  if secret.data.stateJSON =
    some (.marshal (desiredState wg (secret.data.privateKey.getD "") admitted)) then secret
  else refreshed wg secret admitted

theorem syncSecret_clean {wg : Wireguard} {secret : Secret} {admitted : List WireguardPeer}
    (stored : c.secrets wg.key = some secret)
    (run : Trace (clusterEnv NoFault) c (syncSecret wg secret admitted) events outcome d)
    (whole : outcome ≠ .cut) :
    outcome = .done () ∧ d.peers = c.peers ∧ d.wireguards = c.wireguards ∧
      d.secrets = Function.update c.secrets wg.key (some (keptSecret wg secret admitted)) ∧
      peerWrites events = [] := by
  unfold syncSecret at run
  dsimp only at run
  unfold keptSecret
  split at run
  · rename_i current
    obtain ⟨rfl, rfl, rfl⟩ := run.done_inv whole
    rw [if_pos current, ← stored, Function.update_eq_self]
    exact ⟨rfl, rfl, rfl, rfl, rfl⟩
  · rename_i stale
    have possible : ∀ e, ¬ Refuses c (.updateSecret (refreshed wg secret admitted)) e := by
      intro e refused
      cases refused with
      | updateSecret missing _ =>
        have here : c.secrets wg.key = none := missing
        rw [stored] at here
        contradiction
    obtain ⟨reply, c', tail, served, after, rfl⟩ := demand_clean run whole possible
    obtain ⟨pods, c'', tail', listing, last, rfl⟩ := demand_clean after whole (by rintro e ⟨⟩)
    obtain ⟨rfl, rfl, silent⟩ := touchPods_clean last whole
    cases listing
    cases served
    rw [if_neg stale]
    exact ⟨rfl, rfl, rfl, rfl, silent⟩

theorem report_clean {wg latest : Wireguard} {cond : Condition}
    (stored : c.wireguards wg.key = some latest)
    (run : Trace (clusterEnv NoFault) c (report wg cond identity result) events outcome d)
    (whole : outcome ≠ .cut) :
    outcome = .done result ∧ d.peers = c.peers ∧ d.secrets = c.secrets ∧
      (∃ status, status.status ≠ "" ∧ d.wireguards wg.key = some { latest with status := status }) ∧
      peerWrites events = [] := by
  simp only [report, updateStatus, ask_bind, call_bind] at run
  obtain ⟨tail, after, rfl⟩ := getWireguard_clean run whole stored
  have named : latest.key = wg.key := c.named stored
  simp only [call_bind] at after
  obtain ⟨reply, c', tail', served, last, rfl⟩ := call_clean after whole (by
    intro e refused
    cases refused with
    | updateWireguardStatus missing _ =>
      have here : c.wireguards latest.key = none := missing
      rw [named, stored] at here
      contradiction)
  obtain ⟨rfl, rfl, rfl⟩ := last.done_inv whole
  cases served with
  | updateWireguardStatus _ =>
    refine ⟨rfl, rfl, rfl, ⟨_,
      recordedStatus_started wg.generation latest.status cond identity, ?_⟩, rfl⟩
    have keys : ∀ status, ({ latest with status := status } : Wireguard).key = wg.key :=
      fun _ => named
    simp [Cluster.setWireguardStatus, keys, stored]

theorem publish_clean {wg latest : Wireguard} {svc : Service} {secret : Secret}
    {admitted : List WireguardPeer} (stored : c.wireguards wg.key = some latest)
    (known : ∀ peer ∈ admitted, ∃ q ∈ c.peers, q.key = peer.key)
    (run : Trace (clusterEnv NoFault) c (publish wg svc secret admitted) events outcome d)
    (whole : outcome ≠ .cut) :
    outcome = .done .empty ∧
      d.peers = (c.applyAll (syncs wg (identityOf svc secret) admitted)).peers ∧
      d.secrets = c.secrets ∧
      (∃ status, status.status ≠ "" ∧ d.wireguards wg.key = some { latest with status := status }) ∧
      peerWrites events = syncs wg (identityOf svc secret) admitted := by
  simp only [publish, ask_bind] at run
  obtain ⟨dep, c', tail, served, after, rfl⟩ := call_clean run whole (by rintro e ⟨⟩)
  cases served with
  | applyDeployment _ =>
  have never : ∀ {events error t}, ¬ Trace (clusterEnv NoFault) c
      (syncPeerIdentity wg (identityOf svc secret) admitted) events (.fail error) t := by
    intro events error t failed
    simpa using (syncPeerIdentity_clean known failed (by simp)).1
  obtain ⟨_, t, first, rest, syncing, last, rfl⟩ := after.bind_inv whole never
  obtain ⟨-, rfl, written⟩ := syncPeerIdentity_clean known syncing (by simp)
  have kept : (c.applyAll (syncs wg (identityOf svc secret) admitted)).wireguards wg.key =
      some latest := by
    rw [applyAll_wireguards]
    exact stored
  have reported : outcome = .done .empty ∧
      d.peers = (c.applyAll (syncs wg (identityOf svc secret) admitted)).peers ∧
      d.secrets = (c.applyAll (syncs wg (identityOf svc secret) admitted)).secrets ∧
      (∃ status, status.status ≠ "" ∧ d.wireguards wg.key = some { latest with status := status }) ∧
      peerWrites rest = [] := by
    split at last <;> exact report_clean kept last whole
  obtain ⟨ended, peers, secrets, started, silent⟩ := reported
  refine ⟨ended, peers, secrets.trans (applyAll_secrets _ _), started, ?_⟩
  have appended : peerWrites (first ++ rest) = syncs wg (identityOf svc secret) admitted := by
    rw [peerWrites_append, written, silent, List.append_nil]
    rfl
  exact appended

theorem serve_clean {wg latest : Wireguard} {svc : Service} {secret : Secret}
    {admitted : List WireguardPeer}
    (stored : c.wireguards wg.key = some latest) (minted : c.secrets wg.key = some secret)
    (known : ∀ peer ∈ admitted, ∃ q ∈ c.peers, q.key = peer.key)
    (run : Trace (clusterEnv NoFault) c (serve publicHalf wg svc admitted) events outcome d)
    (whole : outcome ≠ .cut) :
    outcome = .done .empty ∧
      d.peers = (c.applyAll (syncs wg (identityOf svc secret) admitted)).peers ∧
      d.secrets = Function.update c.secrets wg.key (some (keptSecret wg secret admitted)) ∧
      (∃ status, status.status ≠ "" ∧ d.wireguards wg.key = some { latest with status := status }) ∧
      peerWrites events = syncs wg (identityOf svc secret) admitted := by
  simp only [serve, ask_bind] at run
  obtain ⟨tail, after, rfl⟩ := getSecret_clean run whole minted
  dsimp only at after
  have never : ∀ {events error t}, ¬ Trace (clusterEnv NoFault) c (syncSecret wg secret admitted)
      events (.fail error) t := by
    intro events error t failed
    simpa using (syncSecret_clean minted failed (by simp)).1
  obtain ⟨_, t, first, rest, syncing, last, rfl⟩ := after.bind_inv whole never
  obtain ⟨-, peers, wireguards, secrets, silent⟩ := syncSecret_clean minted syncing (by simp)
  obtain ⟨ended, peers', secrets', started, written⟩ := publish_clean
    (by rw [wireguards]; exact stored) (by rw [peers]; exact known) last whole
  refine ⟨ended, ?_, secrets'.trans secrets, started, ?_⟩
  · rw [peers', applyAll_peers, applyAll_peers, peers]
  · have appended : peerWrites (first ++ rest) = syncs wg (identityOf svc secret) admitted := by
      rw [peerWrites_append, silent, written, List.nil_append]
    exact appended

theorem reconcilePeers_clean {wg : Wireguard} {secret : Secret}
    (minted : c.secrets wg.key = some secret) (reads : Ipam.Reads (effectivePeerCIDR4 wg) range)
    (run : Trace (clusterEnv NoFault) c (reconcilePeers req wg) events outcome d)
    (whole : outcome ≠ .cut) :
    ∃ items : List WireguardPeer, items.Perm c.peers ∧
      outcome = .done (plan wg (secretKeys secret) (relatedPeers req items)).served ∧
      d = c.applyAll ((plan wg (secretKeys secret) (relatedPeers req items)).writes
        (effectivePeerCIDR4 wg)) ∧
      peerWrites events =
        (plan wg (secretKeys secret) (relatedPeers req items)).writes (effectivePeerCIDR4 wg) := by
  rw [reconcilePeers_eq] at run
  simp only [admittedKeys, ask_bind, call_bind] at run
  obtain ⟨tail, after, rfl⟩ := getSecret_clean run whole minted
  simp only [pure_eq, done_bind, getWireguardPeers, bind_assoc] at after
  obtain ⟨items, c', tail', served, last, rfl⟩ := demand_clean after whole (by rintro e ⟨⟩)
  cases served with
  | listPeers permuted =>
    obtain ⟨ended, rfl, landing⟩ := execute_plan reliable_noFault reads permuted last whole
    refine ⟨items, permuted, ended, rfl, ?_⟩
    have silent : peerWrites tail' = _ := (congrArg peerWrites landing).trans (peerWrites_landed _)
    exact silent

end Stages

section Pass
variable {c c' : Cluster} {publicHalf : Wgtypes.Key → Wgtypes.Key}

/-- A whole pass for `req` in which nothing fails. -/
def CleanPass (publicHalf : Wgtypes.Key → Wgtypes.Key) (req : NamespacedName) (c : Cluster)
    (events : List (Event Call Answer)) (c' : Cluster) : Prop :=
  ∃ outcome, outcome ≠ .cut ∧
    Trace (clusterEnv NoFault) c (reconcile publicHalf req) events outcome c'

/-- All peer writes of such a pass, in order. -/
def passWrites (wg : Wireguard) (id : ServerIdentity) (p : Plan) : List WireguardPeer :=
  p.writes (effectivePeerCIDR4 wg) ++ syncs wg id p.served

/-- Everything a clean pass does that a later pass can see. -/
structure Passed (req : NamespacedName) (wg : Wireguard) (secret : Secret)
    (items : List WireguardPeer)
    (c : Cluster) (events : List (Event Call Answer)) (c' : Cluster) : Prop where
  permuted : items.Perm c.peers
  peers : c'.peers = c.peers.map (applyWrites (passWrites wg (identityOf (assigned c wg) secret)
    (plan wg (secretKeys secret) (relatedPeers req items))))
  secrets : c'.secrets = Function.update c.secrets req
    (some (keptSecret wg secret (plan wg (secretKeys secret) (relatedPeers req items)).served))
  started : ∃ status, status.status ≠ "" ∧ c'.wireguards req = some { wg with status := status }
  writes : peerWrites events = passWrites wg (identityOf (assigned c wg) secret)
    (plan wg (secretKeys secret) (relatedPeers req items))
  specs : SameSpecs c c'

theorem clean_pass (renderable : Renderable req wg c) (minted : c.secrets req = some secret)
    (pass : CleanPass publicHalf req c events c') :
    ∃ items, Passed req wg secret items c events c' := by
  obtain ⟨outcome, whole, run⟩ := pass
  have specs := trace_sameSpecs run
  have named : wg.key = req := c.named renderable.stored
  subst named
  obtain ⟨range, reads⟩ := (checkedSpec renderable.spec).range
  rw [reconcile_eq] at run
  obtain ⟨prepared, d, first, rest, preparing, after, rfl⟩ := run.bind_inv whole fun failed => by
    simpa using (prepare_clean renderable failed (by simp)).1
  obtain ⟨-, quiet, -⟩ := prepare_trace renderable.stored preparing
  obtain ⟨ended, rfl⟩ := prepare_clean renderable preparing (by simp)
  obtain rfl := Outcome.done.inj ended
  dsimp only at after
  obtain ⟨admitted, e, middle, last, reconciling, serving, rfl⟩ :=
      after.bind_inv whole fun failed => by
    obtain ⟨_, _, impossible, _⟩ := reconcilePeers_clean minted reads failed (by simp)
    simp at impossible
  obtain ⟨items, permuted, returned, rfl, planned⟩ :=
    reconcilePeers_clean minted reads reconciling (by simp)
  obtain rfl := Outcome.done.inj returned
  have known : ∀ peer ∈ (plan wg (secretKeys secret) (relatedPeers wg.key items)).served,
      ∃ q ∈ (d.applyAll ((plan wg (secretKeys secret) (relatedPeers wg.key items)).writes
        (effectivePeerCIDR4 wg))).peers, q.key = peer.key := by
    intro peer member
    obtain ⟨origin, related, same⟩ := served_object member
    exact stored_applyAll ⟨origin, permuted.mem_iff.mp (List.mem_filter.mp related).1,
      (key_of_object same).symm⟩ _
  have stored : (d.applyAll ((plan wg (secretKeys secret) (relatedPeers wg.key items)).writes
      (effectivePeerCIDR4 wg))).wireguards wg.key = some wg := by
    rw [applyAll_wireguards, renderable.stored]
  have minted' : (d.applyAll ((plan wg (secretKeys secret) (relatedPeers wg.key items)).writes
      (effectivePeerCIDR4 wg))).secrets wg.key = some secret := by
    rw [applyAll_secrets, minted]
  obtain ⟨-, peers, secrets, started, syncing⟩ := serve_clean stored minted' known serving whole
  refine ⟨items, permuted, ?_, ?_, started, ?_, specs⟩
  · rw [peers, ← applyAll_append, applyAll_peers]
    rfl
  · rw [secrets, applyAll_secrets]
  · rw [peerWrites_append, peerWrites_append, peerWrites_quiet quiet, planned, syncing]
    rfl

end Pass
end TunnelOperator.Controller
