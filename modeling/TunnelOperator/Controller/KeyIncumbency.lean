import TunnelOperator.Controller.Apiserver
import TunnelOperator.Controller.StateProofs

/-! Key incumbency: whether a peer that state.json lists under its public key can lose
the key to another peer in a later pass. -/
namespace TunnelOperator.Controller
open Program Relation

/-- The peer is stored as `v`, names the server, and is in a namespace it admits. -/
def Attached (server : NamespacedName) (v : WireguardPeer) (c : Cluster) : Prop :=
  gatewayKey v = server ∧ (∃ stored ∈ c.peers, stored.object = v.object) ∧
    ∃ wg, c.wireguards server = some wg ∧ AllowsNamespace wg v.nameSpace

/-- Actions that leave `v` as it is, its server in place and its namespace admitted. -/
def Spares (server : NamespacedName) (v : WireguardPeer) : Action → Prop
  | .createPeer _ | .createWireguard _ => True
  | .editPeer name _ | .deletePeer name => name ≠ v.key
  | .editWireguard name spec => name = server → ∀ policy, spec.allowedNamespaces = some policy →
      policy.from_ = .same → v.nameSpace = server.nameSpace
  | .deleteWireguard name => name ≠ server

/-- The steps key incumbency is about. -/
inductive SparingStep (publicHalf : Wgtypes.Key → Wgtypes.Key) (server : NamespacedName)
    (v : WireguardPeer) : Cluster → Cluster → Prop where
  | pass : Pass publicHalf (fun _ => True) req c c' → SparingStep publicHalf server v c c'
  | act : Spares server v action → SparingStep publicHalf server v c (c.act action)

/-- Once state.json lists `v` under its key, no other peer is listed under that key for
as long as `v` is left alone. -/
def KeyIncumbency : Prop :=
  ∀ (publicHalf : Wgtypes.Key → Wgtypes.Key) (server : NamespacedName) (v : WireguardPeer)
    (fresh first last : Cluster), fresh.secrets server = none →
      ReflTransGen (AnyStep publicHalf fun _ => True) fresh first →
    Lists first server v.key v.spec.publicKey → Attached server v first →
    ReflTransGen (SparingStep publicHalf server v) first last →
    ∀ other, Lists last server other v.spec.publicKey → other = v.key

/-- What a pass of the server needs to start with: it lists `v` under its key, or no
admissible peer of the server that carries the key is older than `v`. -/
def Incumbent (server : NamespacedName) (v : WireguardPeer) (c : Cluster) : Prop :=
  Lists c server v.key v.spec.publicKey ∨
    ∀ wg, c.wireguards server = some wg → ∀ u ∈ c.peers, gatewayKey u = server →
      refusal wg u = none →
      u.spec.publicKey = v.spec.publicKey → older u v = false

/-- The steps key incumbency holds for: a pass of the server finds `v` incumbent. -/
inductive IncumbentStep (publicHalf : Wgtypes.Key → Wgtypes.Key) (server : NamespacedName)
    (v : WireguardPeer) : Cluster → Cluster → Prop where
  | pass : (req = server → Incumbent server v c) → Pass publicHalf (fun _ => True) req c c' →
      IncumbentStep publicHalf server v c c'
  | act : Spares server v action → IncumbentStep publicHalf server v c (c.act action)

section Attached
variable {c c' : Cluster} {server : NamespacedName} {v : WireguardPeer}

theorem allows_of_object {first second : Wireguard} (same : first.object = second.object)
    (allows : AllowsNamespace first nameSpace) : AllowsNamespace second nameSpace := by
  have objects : ∀ wg : Wireguard, AllowsNamespace wg.object nameSpace =
      AllowsNamespace wg nameSpace :=
    fun _ => rfl
  rw [← objects, ← same, objects]
  exact allows

theorem attached_of_sameSpecs (attached : Attached server v c) (specs : SameSpecs c c') :
    Attached server v c' := by
  obtain ⟨ours, ⟨stored, member, same⟩, wg, found, allows⟩ := attached
  obtain ⟨stored', member', same'⟩ := specs.stored member
  refine ⟨ours, ⟨stored', member', same'.trans same⟩, ?_⟩
  have kept := specs.wireguards server
  rw [found] at kept
  obtain ⟨wg', found', object⟩ := Option.map_eq_some_iff.mp kept
  exact ⟨wg', found', allows_of_object object.symm allows⟩

/-- A peer that is left alone is stored as it was. -/
theorem act_stored (spares : Spares server v action) (member : stored ∈ c.peers)
    (named : stored.key = v.key) : stored ∈ (c.act action).peers := by
  cases action with
  | createPeer peer =>
    simp only [Cluster.act]
    split
    · exact List.mem_cons_of_mem _ member
    · exact member
  | editPeer name spec =>
    refine List.mem_map.mpr ⟨stored, member, ?_⟩
    rw [Cluster.editSpec, if_neg]
    rw [named]
    exact Ne.symm spares
  | deletePeer name =>
    refine List.mem_filter.mpr ⟨member, ?_⟩
    rw [named]
    simpa using Ne.symm spares
  | createWireguard wg =>
    simp only [Cluster.act]
    split <;> exact member
  | editWireguard name spec => exact member
  | deleteWireguard name => exact member

theorem act_serves (unedited : ∀ spec, action ≠ .editWireguard server spec)
    (undeleted : action ≠ .deleteWireguard server) (found : c.wireguards server = some wg) :
    (c.act action).wireguards server = some wg := by
  cases action with
  | createPeer peer => simp only [Cluster.act]; split <;> exact found
  | editPeer name spec => exact found
  | deletePeer name => exact found
  | createWireguard new =>
    simp only [Cluster.act]
    split
    · rename_i free
      have other : server ≠ new.key := by
        rintro rfl
        rw [found] at free
        contradiction
      simpa [other] using found
    · exact found
  | editWireguard name spec =>
    have other : server ≠ name := fun here => unedited spec (here ▸ rfl)
    simpa [Cluster.act, other] using found
  | deleteWireguard name =>
    have other : server ≠ name := fun here => undeleted (here ▸ rfl)
    simpa [Cluster.act, other] using found

theorem act_allows (spares : Spares server v action) (found : c.wireguards server = some wg)
    (allows : AllowsNamespace wg v.nameSpace) :
    ∃ wg', (c.act action).wireguards server = some wg' ∧ AllowsNamespace wg' v.nameSpace := by
  by_cases edited : ∃ spec, action = .editWireguard server spec
  · obtain ⟨spec, rfl⟩ := edited
    refine ⟨_, by simp [Cluster.act, found]; rfl, ?_⟩
    intro policy chosen restricted
    have own : wg.nameSpace = server.nameSpace := congrArg NamespacedName.nameSpace (c.named found)
    exact (spares rfl policy chosen restricted).trans own.symm
  · refine ⟨wg, act_serves (fun spec same => edited ⟨spec, same⟩) ?_ found, allows⟩
    rintro rfl
    exact spares rfl

theorem attached_act (attached : Attached server v c) (spares : Spares server v action) :
    Attached server v (c.act action) := by
  obtain ⟨ours, ⟨stored, member, same⟩, wg, found, allows⟩ := attached
  exact ⟨ours, ⟨stored, act_stored spares member (key_of_object same), same⟩,
    act_allows spares found allows⟩

theorem state_act (spares : Spares server v action) :
    (c.act action).state server = c.state server := by
  apply state_of_secrets
  cases action with
  | createPeer peer => simp only [Cluster.act]; split <;> rfl
  | editPeer name spec => rfl
  | deletePeer name => rfl
  | createWireguard wg => simp only [Cluster.act]; split <;> rfl
  | editWireguard name spec => rfl
  | deleteWireguard name => simp [Cluster.act, Ne.symm spares]

end Attached

section Incumbency
variable {c c' : Cluster} {server : NamespacedName} {v : WireguardPeer}
    {publicHalf : Wgtypes.Key → Wgtypes.Key}

structure Undisputed (server : NamespacedName) (v : WireguardPeer) (c : Cluster) : Prop where
  attached : Attached server v c
  operated : Operated server c
  alone : ∀ other, Lists c server other v.spec.publicKey → other = v.key

/-- In a pass that finds `v` incumbent, whoever holds the key of `v` is `v`. -/
theorem keyHolder_is_incumbent (undisputed : Undisputed server v c)
    (incumbent : Incumbent server v c)
    (stored : c.wireguards server = some found) (permuted : List.Perm items c.peers)
    (holding : holder ∈ keyHolders found (c.listed server) (relatedPeers server items))
    (keyed : holder.spec.publicKey = v.spec.publicKey) : holder.key = v.key := by
  obtain ⟨ours, ⟨saved, member, same⟩, wg, stored', allows⟩ := undisputed.attached
  obtain rfl : wg = found := Option.some.inj (stored'.symm.trans stored)
  have distinct := related_distinct permuted server
  have admitted := keyHolders_sublist.subset holding
  obtain ⟨related, passes⟩ := mem_admissible.mp admitted
  obtain ⟨inItems, attached⟩ := List.mem_filter.mp related
  have canonical := ((refusal_eq_none_iff wg holder).mp passes).2
  have savedKey : saved.spec = v.spec := spec_of_object same
  have savedName : saved.key = v.key := key_of_object same
  -- `v` itself competes for the key.
  have competes : saved ∈ admissible wg (relatedPeers server items) := by
    refine mem_admissible.mpr ⟨List.mem_filter.mpr ⟨permuted.mem_iff.mpr member, ?_⟩, ?_⟩
    · simpa [gatewayKey_of_object same] using ours
    · rw [refusal_congr wg same, refusal_eq_none_iff, namespaceNotAllowed_eq_none_iff, ← keyed]
      exact ⟨allows, canonical⟩
  by_contra apart
  have holds := (mem_keyHolders distinct).mp holding
  rcases holds.2 saved competes (by simp only [savedKey, keyed]) with rfl | wins
  · exact apart savedName
  have unlisted : listed (c.listed server) holder = false := by
    by_contra listing
    simp only [listed, Bool.not_eq_false, decide_eq_true_eq] at listing
    refine apart (undisputed.alone holder.key ?_)
    rw [← keyed]
    exact lists_of_listed canonical.ne_empty listing
  simp only [beats, unlisted] at wins
  cases listing : listed (c.listed server) saved with
  | true => simp [listing] at wins
  | false =>
    simp only [listing, ne_eq, not_true_eq_false, if_false] at wins
    rcases incumbent with lists | oldest
    · have here := listed_of_lists undisputed.operated lists
      simp [listed, savedName, savedKey, here] at listing
    · have younger := oldest wg stored holder (permuted.mem_iff.mp inItems) (by simpa using attached) passes keyed
      rw [older_congr rfl same, younger] at wins
      contradiction

theorem undisputed_pass (undisputed : Undisputed server v c)
    (incumbent : req = server → Incumbent server v c)
    (pass : Pass publicHalf faulty req c c') : Undisputed server v c' := by
  have specs : SameSpecs c c' := by
    obtain ⟨events, outcome, run⟩ := pass
    exact trace_sameSpecs run
  refine ⟨attached_of_sameSpecs undisputed.attached specs,
    operated_pass undisputed.operated pass, ?_⟩
  rintro other ⟨state, stated, entry, member, rfl, keyed⟩
  obtain ⟨others, ours⟩ := pass_state pass
  by_cases own : server = req
  · subst own
    rcases ours with same | ⟨found, items, admitted, privateKey, stored, checked, permuted,
      returns, written⟩
    · exact undisputed.alone _ ⟨state, same ▸ stated, entry, member, rfl, keyed⟩
    · rw [written] at stated
      obtain rfl := Option.some.inj stated
      obtain ⟨served, returned, rfl⟩ := mem_desiredState.mp member
      obtain ⟨range, reads⟩ := checked.range
      obtain ⟨holder, holding, same, -⟩ :=
        mem_served reads (related_distinct permuted server) (returns.1.subset returned)
      have name : served.key = holder.key := key_of_object same
      refine Eq.trans (show (rendered served).key = holder.key from name) ?_
      refine keyHolder_is_incumbent undisputed (incumbent rfl) stored permuted holding ?_
      rw [← spec_of_object same]
      exact keyed
  · exact undisputed.alone _ ⟨state, others server own ▸ stated, entry, member, rfl, keyed⟩

theorem undisputed_act (undisputed : Undisputed server v c) (spares : Spares server v action) :
    Undisputed server v (c.act action) where
  attached := attached_act undisputed.attached spares
  operated := operated_act undisputed.operated action
  alone other := by
    rintro ⟨state, stated, entry⟩
    exact undisputed.alone other ⟨state, state_act spares ▸ stated, entry⟩

theorem undisputed_history (undisputed : Undisputed server v c)
    (run : ReflTransGen (IncumbentStep publicHalf server v) c c') : Undisputed server v c' := by
  induction run with
  | refl => exact undisputed
  | tail _ step ih =>
    cases step with
    | pass incumbent pass => exact undisputed_pass ih incumbent pass
    | act spares => exact undisputed_act ih spares

/-- Along every run in which each pass of the server finds `v` incumbent, no other peer
is listed under the key of `v`. -/
theorem key_incumbency_of_incumbent_passes (fresh first last : Cluster)
    (unminted : fresh.secrets server = none)
    (before : ReflTransGen (AnyStep publicHalf fun _ => True) fresh first)
    (listing : Lists first server v.key v.spec.publicKey) (attached : Attached server v first)
    (run : ReflTransGen (IncumbentStep publicHalf server v) first last) :
    ∀ other, Lists last server other v.spec.publicKey → other = v.key := by
  have operated := operated_history unminted before
  have undisputed : Undisputed server v first :=
    ⟨attached, operated, fun _ another => alone_of_lists operated listing another⟩
  exact (undisputed_history undisputed run).alone

end Incumbency

/-! A run in which a pass drops the incumbent: while the peers move to a new range, the
write of the incumbent's new address meets a conflict. -/

section Usurper

def gateway : NamespacedName := ⟨"vpn", "gw"⟩

def elder : WireguardPeer := samplePeer "elder" 1 firstKey
def victim : WireguardPeer := samplePeer "victim" 5 secondKey

def freshCluster : Cluster where
  wireguards := fun key => if key = gateway then some sampleServer else none
  secrets := fun _ => none
  clusterIPs := fun _ => "10.96.0.10"
  peers := [elder, victim]
  named := fun stored => Cluster.named_ite stored rfl nofun
  distinct := by decide

def victimLost (write : WireguardPeer) : Option ApiError :=
  if write.key = victim.key then some ⟨.conflict, "the object has been modified"⟩ else none

/-- Both peers are listed under their own keys. -/
def listedCluster : Cluster := afterPass nothingLost gateway freshCluster

def takeKey : Action := .editPeer elder.key { elder.spec with publicKey := secondKey }

def moveRange : Action :=
  .editWireguard gateway { sampleServer.spec with peerCIDR := "10.9.0.0/24" }

def droppedCluster : Cluster :=
  afterPass victimLost gateway ((listedCluster.act takeKey).act moveRange)

def takenCluster : Cluster := afterPass nothingLost gateway droppedCluster

theorem takeKey_spares : Spares gateway victim takeKey := by
  show elder.key ≠ victim.key
  decide

theorem moveRange_spares : Spares gateway victim moveRange := by
  intro _ policy chosen
  contradiction

theorem listedCluster_reached :
    ReflTransGen (AnyStep (fun _ => drawnPublicKey) fun _ => True) freshCluster listedCluster :=
  .single (.pass (pass_afterPass nothingLost (fun _ _ _ => trivial) gateway freshCluster))

theorem listedCluster_attached : Attached gateway victim listedCluster := by
  have fresh : Attached gateway victim freshCluster := by
    refine ⟨by decide, ⟨victim, by decide, rfl⟩, sampleServer, by decide, ?_⟩
    intro policy chosen
    contradiction
  obtain ⟨events, outcome, run⟩ : Pass _ (fun _ => True) gateway freshCluster listedCluster :=
    pass_afterPass nothingLost (fun _ _ _ => trivial) gateway freshCluster
  exact attached_of_sameSpecs fresh (trace_sameSpecs run)

theorem key_incumbency_after_key_edit :
    Lists (afterPass nothingLost gateway (listedCluster.act takeKey)) gateway victim.key secondKey ∧
      ∀ other, Lists (afterPass nothingLost gateway (listedCluster.act takeKey)) gateway
        other secondKey →
        other = victim.key := by
  refine ⟨by decide +kernel, ?_⟩
  refine key_incumbency_of_incumbent_passes (v := victim) freshCluster listedCluster _ rfl
    listedCluster_reached (by decide +kernel) listedCluster_attached ?_
  refine .tail (.single (.act takeKey_spares)) (.pass (fun _ => .inl ?_)
    (pass_afterPass nothingLost (fun _ _ _ => trivial) gateway _))
  decide +kernel

/-- The older peer ends up listed under the key of the incumbent it had to wait for. -/
theorem keyIncumbency_fails : ¬ KeyIncumbency := by
  intro incumbency
  have run : ReflTransGen (SparingStep (fun _ => drawnPublicKey) gateway victim) listedCluster
      takenCluster := by
    refine .head (.act takeKey_spares) (.head (.act moveRange_spares) ?_)
    refine .head (.pass (pass_afterPass victimLost (fun _ _ _ => trivial) gateway _)) ?_
    exact .single (.pass (pass_afterPass nothingLost (fun _ _ _ => trivial) gateway _))
  have same := incumbency _ gateway victim freshCluster listedCluster takenCluster rfl
    listedCluster_reached (by decide +kernel) listedCluster_attached run elder.key
      (by decide +kernel)
  contradiction

end Usurper
end TunnelOperator.Controller
