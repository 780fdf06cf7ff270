import TunnelOperator.Controller.Provenance

/-! A pass against a cluster that keeps its past, stage by stage: every stage writes only
peers that name the server of the pass, and gives them no identity but its own. -/
namespace TunnelOperator.Controller
open Program Resources

section Pass
variable {publicHalf : Wgtypes.Key → Wgtypes.Key} {faulty : Call → Prop} {gw : NamespacedName}
  {h h' : Ledger} {c d e : Cluster}

theorem settled_call (settled : h.Throughout Settled)
    (answered : History.recording (clusterEnv faulty) (some gw) h request answer h')
    (proper : ∀ write, request = .updatePeerStatus write → Proper gw h write) :
    h'.Throughout Settled := by
  have after := settled.last.call answered proper
  obtain ⟨t, -, rfl⟩ := answered
  exact ⟨settled, after⟩

/-- The calls that leave every peer as it is. -/
def SparesPeers : Call → Prop
  | .updatePeerStatus _ => False
  | _ => True

theorem permits_sparesPeers : Permits SparesPeers := by
  constructor <;> intros <;> trivial

/-- While no peer is written, a list has the peers there were. -/
def PeersOf (peers : List WireguardPeer) : (request : Call) → Answer request → Prop
  | .listPeers, .ok items => items.Perm peers
  | _, _ => True

theorem settled_spared {program : Reconciler α} {post : α → Prop}
    (run : Trace (History.recording (clusterEnv faulty) (some gw)) h program events outcome h')
    (safe : program.Safe (PeersOf h.now.peers) SparesPeers post)
    (settled : h.Throughout Settled) : h'.Throughout Settled ∧ h'.now.peers = h.now.peers ∧
      ∀ value, outcome = .done value → post value := by
  let Holds := fun k : Ledger => k.Throughout Settled ∧ k.now.peers = h.now.peers
  have step : ∀ {k request answer k'}, SparesPeers request →
      History.recording (clusterEnv faulty) (some gw) k request answer k' → Holds k →
      PeersOf h.now.peers request answer ∧ Holds k' := by
    rintro k request answer k' spares answered ⟨before, same⟩
    have after := settled_call before answered fun write isWrite => by
      subst isWrite
      exact spares.elim
    obtain ⟨t, answers, rfl⟩ := answered
    refine ⟨?_, after, ?_⟩
    · unfold PeersOf
      split
      · exact same ▸ listPeers_ok answers
      · trivial
    · cases effect_of_env answers with
      | none | wireguardStatus | created | updated => exact same
      | peerStatus => exact spares.elim
  obtain ⟨holds, -, returns⟩ := run.safe safe step ⟨settled, rfl⟩
  exact ⟨holds.1, holds.2, returns⟩

/-- The writes that were proper when the stage began. -/
def WritesOwn (gw : NamespacedName) (h : Ledger) : Call → Prop
  | .updatePeerStatus write => Proper gw h write
  | _ => True

theorem permits_writesOwn (gw : NamespacedName) (h : Ledger) : Permits (WritesOwn gw h) := by
  constructor <;> intros <;> trivial

/-- What a pass reads under the specs of `c`. -/
def SpecsOf (c : Cluster) : (request : Call) → Answer request → Prop
  | .getWireguard key, .ok wg => (c.wireguards key).map (·.object) = some wg.object
  | .applyService svc, .ok applied =>
      applied = { svc with clusterIP := c.clusterIPs ⟨svc.nameSpace, svc.name⟩ }
  | .listPeers, .ok items => ∀ peer ∈ items, ∃ stored ∈ c.peers, stored.object = peer.object
  | _, _ => True

theorem specsOf (specs : SameSpecs c d) (answered : clusterEnv faulty d request answer e) :
    SpecsOf c request answer := by
  unfold SpecsOf
  split
  · rename_i key wg
    rw [← specs.wireguards, getWireguard_ok answered]
    rfl
  · rw [← specs.clusterIPs]
    cases answered with
    | applyService => rfl
  · intro peer member
    have inside : peer ∈ d.peers := (listPeers_ok answered).mem_iff.mp member
    have object : peer.object ∈ c.peers.map (·.object) :=
      specs.peers ▸ List.mem_map_of_mem inside
    exact List.mem_map.mp object
  · trivial

/-- A write that was proper stays so while no spec changes. -/
theorem Proper.next (proper : Proper gw h write) (specs : SameSpecs h.now c) :
    Proper gw (.next h party c) write :=
  ⟨proper.ours.specs specs, fun told => .inl (proper.endpoint told)⟩

theorem settled_stage {program : Reconciler α} {post : α → Prop}
    (run : Trace (History.recording (clusterEnv faulty) (some gw)) h program events outcome h')
    (safe : program.Safe (SpecsOf h.now) (WritesOwn gw h) post)
    (settled : h.Throughout Settled) :
    h'.Throughout Settled ∧ ∀ value, outcome = .done value → post value := by
  let Holds := fun k : Ledger => k.Throughout Settled ∧ SameSpecs h.now k.now ∧
    ∀ write, Proper gw h write → Proper gw k write
  have step : ∀ {k request answer k'}, WritesOwn gw h request →
      History.recording (clusterEnv faulty) (some gw) k request answer k' → Holds k →
      SpecsOf h.now request answer ∧ Holds k' := by
    rintro k request answer k' own answered ⟨before, specs, proper⟩
    have after := settled_call before answered fun write isWrite => by
      subst isWrite
      exact proper write own
    obtain ⟨t, answers, rfl⟩ := answered
    have kept := (effect_of_env answers).sameSpecs
    exact ⟨specsOf specs answers, after, specs.trans kept,
      fun write was => (proper write was).next kept⟩
  obtain ⟨holds, -, returns⟩ := run.safe safe step ⟨settled, .refl _, fun _ => id⟩
  exact ⟨holds.1, returns⟩

/-! The first stage reads the Wireguard and its Service. It may clear statuses. -/

theorem notReady_proper (listed : ∃ stored ∈ h.now.peers, stored.object = peer.object)
    (names : gatewayKey peer = gw) (written : notReadyWrite peer nr = some write) :
    Proper gw h write where
  ours := by
    rw [notReadyWrite_key written]
    exact ours_of_listed listed names
  endpoint told := absurd (congrArg Prod.fst (notReadyWrite_identity written).1) told

theorem settled_prepare
    (run : Trace (History.recording (clusterEnv faulty) (some gw)) h (prepare gw) events outcome h')
    (settled : h.Throughout Settled) : h'.Throughout Settled ∧
      ∀ wg svc, outcome = .done (.rendered wg svc) →
        (h'.now.wireguards gw).map (·.object) = some wg.object ∧ svc = h'.now.service wg := by
  have safe : (prepare gw).Safe (SpecsOf h.now) (WritesOwn gw h) _ :=
    prepare_safe (permits_writesOwn gw h) gw fun _ _ listed peer member names _ written =>
      notReady_proper (listed peer member) names written
  obtain ⟨after, returns⟩ := settled_stage run safe settled
  have specs := trace_sameSpecs (History.forget run)
  refine ⟨after, fun wg svc ended => ?_⟩
  obtain ⟨read, -, applied⟩ := returns _ ended wg svc rfl
  refine ⟨(specs.wireguards gw).trans read, ?_⟩
  rw [show svc = _ from applied, Cluster.service, specs.clusterIPs]

/-! The middle stage writes the peers of the server, each with the identity it was listed
with or without any. -/

theorem write_proper (settled : Settled h) (permuted : items.Perm h.now.peers)
    (planned : write ∈ (plan wg current (relatedPeers gw items)).writes cidr4) :
    Proper gw h write := by
  constructor
  · obtain ⟨peer, related, named⟩ := write_known planned
    obtain ⟨stored, names⟩ := (mem_related permuted).mp related
    exact named ▸ ours_of_listed ⟨peer, stored, rfl⟩ names
  · intro told
    rcases write_identity planned with ⟨cleared, -⟩ | ⟨peer, related, -, kept⟩
    · exact absurd (congrArg Prod.fst cleared) told
    · obtain ⟨stored, names⟩ := (mem_related permuted).mp related
      have endpoint : write.status.endpoint = peer.status.endpoint := congrArg Prod.fst kept
      have carries := (settled peer stored).endpoint (endpoint ▸ told)
      rwa [Carries, names, ← kept] at carries

theorem served_ours (permuted : items.Perm c.peers)
    (member : peer ∈ (plan wg current (relatedPeers gw items)).served) : Ours gw c peer.key := by
  obtain ⟨origin, related, same⟩ := served_object member
  obtain ⟨stored, names⟩ := (mem_related permuted).mp related
  exact key_of_object same ▸ ours_of_listed ⟨origin, stored, rfl⟩ names

theorem settled_reconcilePeers
    (run : Trace (History.recording (clusterEnv faulty) (some gw)) h (reconcilePeers gw wg) events
      outcome h') (settled : h.Throughout Settled) : h'.Throughout Settled ∧
      ∀ admitted, outcome = .done admitted → ∀ peer ∈ admitted, Ours gw h'.now peer.key := by
  rw [reconcilePeers_eq] at run
  have keysSafe : (admittedKeys wg).Safe (PeersOf h.now.peers) SparesPeers _ :=
    admittedKeys_safe permits_sparesPeers.getSecret wg
  rcases run.bind_cases with ⟨first, rfl⟩ | ⟨_, first, rfl⟩ | ⟨current, k, _, _, first, run, -⟩
  · exact ⟨(settled_spared first keysSafe settled).1, by simp⟩
  · exact ⟨(settled_spared first keysSafe settled).1, by simp⟩
  obtain ⟨settled, -, -⟩ := settled_spared first keysSafe settled
  have listSafe : (getWireguardPeers gw).Safe (PeersOf k.now.peers) SparesPeers _ :=
    getWireguardPeers_safe permits_sparesPeers.listPeers gw
  rcases run.bind_cases with ⟨second, rfl⟩ | ⟨_, second, rfl⟩ | ⟨peers, l, _, _, second, run, -⟩
  · exact ⟨(settled_spared second listSafe settled).1, by simp⟩
  · exact ⟨(settled_spared second listSafe settled).1, by simp⟩
  obtain ⟨settled, same, listed⟩ := settled_spared second listSafe settled
  obtain ⟨items, permuted, rfl⟩ := listed peers rfl
  replace permuted : items.Perm l.now.peers := same ▸ permuted
  have executes : (execute (effectivePeerCIDR4 wg) (plan wg current (relatedPeers gw items))).Safe
      (SpecsOf l.now) (WritesOwn gw l)
      (Returns (plan wg current (relatedPeers gw items)).allotments) := by
    refine (execute_safe _).weaken ?_ fun _ => id
    rintro request ⟨write, planned, rfl⟩
    exact write_proper settled.last permuted planned
  obtain ⟨after, returns⟩ := settled_stage run executes settled
  refine ⟨after, fun admitted ended peer member => ?_⟩
  have served := (returns admitted ended).1.subset member
  exact (served_ours permuted served).specs (trace_sameSpecs (History.forget run))

/-! The last stage publishes the identity once state.json lists the admitted peers. -/

theorem identity_of_read (read : (c.wireguards wg.key).map (·.object) = some wg.object)
    (stored : c.secrets wg.key = some secret) (peer : WireguardPeer) : c.identity wg.key =
      some (publishedIdentity (withIdentity wg (identityOf (c.service wg) secret) peer)) := by
  obtain ⟨found, present, object⟩ := Option.map_eq_some_iff.mp read
  have services : c.service found.object = c.service found := rfl
  have specs : found.object.spec = found.spec := rfl
  simp only [Cluster.identity, present, stored, Option.bind_some, Option.map_some]
  rw [← services, ← specs, object]
  rfl

theorem settled_serve (read : (h.now.wireguards wg.key).map (·.object) = some wg.object)
    (ours : ∀ peer ∈ admitted, Ours wg.key h.now peer.key)
    (run : Trace (History.recording (clusterEnv faulty) (some wg.key)) h
      (serve publicHalf wg (h.now.service wg) admitted) events outcome h')
    (settled : h.Throughout Settled) : h'.Throughout Settled := by
  rw [serve, ask_bind] at run
  cases run with
  | cut => exact settled
  | @call _ _ answer k _ _ _ _ answered rest =>
  have settled := settled_call settled answered fun _ isWrite => by contradiction
  obtain ⟨t, answers, rfl⟩ := answered
  have same : t = h.now := by
    cases effect_of_env answers
    rfl
  subst same
  cases answer with
  | error e =>
    dsimp only at rest
    split at rest
    · have mints : (mintSecret publicHalf wg admitted).Safe (PeersOf h.now.peers) SparesPeers
          fun _ => True := mintSecret_safe trivial publicHalf wg admitted fun _ => trivial
      exact (settled_spared rest mints settled).1
    · cases rest <;> exact settled
  | ok secret =>
    have syncSafe : (syncSecret wg secret admitted).Safe (PeersOf h.now.peers) SparesPeers
        fun _ => True :=
      syncSecret_safe permits_sparesPeers.unguarded wg secret admitted trivial
    rcases rest.bind_cases with ⟨syncing, -⟩ | ⟨_, syncing, -⟩ |
      ⟨_, k, _, _, syncing, publishing, -⟩
    · exact (settled_spared syncing syncSafe settled).1
    · exact (settled_spared syncing syncSafe settled).1
    · obtain ⟨settled, -, -⟩ := settled_spared syncing syncSafe settled
      have specs := trace_sameSpecs (History.forget syncing)
      have publishes : (publish wg (h.now.service wg) secret admitted).Safe (SpecsOf k.now)
          (WritesOwn wg.key k) fun _ => True := by
        refine publish_safe (permits_writesOwn _ _) wg _ secret admitted fun peer member => ?_
        refine ⟨(ours peer member).specs specs, fun _ => History.once_run syncing (.inr ?_)⟩
        exact identity_of_read read (getSecret_ok answers) peer
      exact (settled_stage publishing publishes settled).1

theorem settled_pass
    (run : Trace (History.recording (clusterEnv faulty) (some gw)) h (reconcile publicHalf gw)
      events outcome h') (settled : h.Throughout Settled) : h'.Throughout Settled := by
  rw [reconcile_eq] at run
  rcases run.bind_cases with ⟨first, -⟩ | ⟨_, first, -⟩ | ⟨prepared, k, _, _, first, run, -⟩
  · exact (settled_prepare first settled).1
  · exact (settled_prepare first settled).1
  obtain ⟨settled, rendered⟩ := settled_prepare first settled
  cases prepared with
  | ended result => cases run <;> exact settled
  | rendered wg svc =>
    obtain ⟨read, rfl⟩ := rendered wg svc rfl
    rcases run.bind_cases with ⟨second, -⟩ | ⟨_, second, -⟩ | ⟨admitted, l, _, _, second, run, -⟩
    · exact (settled_reconcilePeers second settled).1
    · exact (settled_reconcilePeers second settled).1
    · obtain ⟨settled, ours⟩ := settled_reconcilePeers second settled
      have specs := trace_sameSpecs (History.forget second)
      have named : wg.key = gw := by
        obtain ⟨found, stored, object⟩ := Option.map_eq_some_iff.mp read
        rw [← key_of_wireguard object, k.now.named stored]
      have service : k.now.service wg = l.now.service wg := by
        simp only [Cluster.service, specs.clusterIPs]
      rw [service] at run
      subst named
      rw [← specs.wireguards] at read
      exact settled_serve read (ours admitted rfl) run settled

end Pass
end TunnelOperator.Controller
