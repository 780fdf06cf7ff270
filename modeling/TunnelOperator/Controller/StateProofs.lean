import TunnelOperator.Controller.Listable
import TunnelOperator.Controller.SecretProofs

/-! What state.json lists, over whole runs: a Secret that only the operator writes names
each peer and each key once, and the keys a pass reads back are the ones listed. -/
namespace TunnelOperator.Controller
open Program Relation

/-- The server's state.json lists the peer of that name under that public key. -/
def Lists (c : Cluster) (server name : NamespacedName) (publicKey : String) : Prop :=
  ∃ state, c.state server = some state ∧
    ∃ peer ∈ state.peers, peer.key = name ∧ peer.spec.publicKey = publicKey

theorem lists_iff (c : Cluster) (server name : NamespacedName) (publicKey : String) :
    Lists c server name publicKey ↔
      ∃ state ∈ c.state server, ∃ peer ∈ state.peers, peer.key = name ∧
        peer.spec.publicKey = publicKey := by
  simp [Lists]

instance (c : Cluster) (server name : NamespacedName) (publicKey : String) :
    Decidable (Lists c server name publicKey) :=
  decidable_of_iff _ (lists_iff c server name publicKey).symm

variable {c c' : Cluster}

def Operated (server : NamespacedName) (c : Cluster) : Prop :=
  ∀ state, c.state server = some state →
    (state.peers.map (·.key)).Nodup ∧ (state.peers.map (·.spec.publicKey)).Nodup

theorem mem_desiredState {peer : WireguardPeer} :
    peer ∈ (desiredState wg privateKey admitted).peers ↔ ∃ q ∈ admitted, rendered q = peer := by
  simp [desiredState]

theorem served_names (distinct : (peers.map (·.key)).Nodup) (current : ListedKeys) :
    ((plan wg current peers).served.map (·.key)).Nodup := by
  have part := (served_objects wg current peers).map (·.key)
  rw [← Cluster.map_key_eq, ← Cluster.map_key_eq] at part
  exact distinct.sublist (part.trans ((keyHolders_sublist.trans List.filter_sublist).map _))

section Operated
variable {faulty : Call → Prop} {publicHalf : Wgtypes.Key → Wgtypes.Key}

/-- Names and keys of a state that a plan returned are distinct. -/
theorem returned_distinct (checked : CheckedSpec wg) (distinct : (peers.map (·.key)).Nodup)
    (returns : Returns (plan wg current peers).allotments admitted) (privateKey : String) :
    ((desiredState wg privateKey admitted).peers.map (·.key)).Nodup ∧
      ((desiredState wg privateKey admitted).peers.map (·.spec.publicKey)).Nodup := by
  have listable := desiredState_listable
    ((served_listable checked distinct).sublist returns.1) privateKey
  refine ⟨?_, listable.keys⟩
  have sorted := List.perm_insertionSort NotAfter (admitted.map rendered)
  refine ((sorted.map (·.key)).nodup_iff).mpr ?_
  rw [List.map_map]
  exact (served_names distinct _).sublist (returns.1.map _)

theorem operated_pass (operated : Operated server c) (pass : Pass publicHalf faulty req c c') :
    Operated server c' := by
  obtain ⟨others, ours⟩ := pass_state pass
  by_cases own : server = req
  · subst own
    intro state after
    rcases ours with same | ⟨found, items, admitted, privateKey, -, checked, permuted,
      returns, written⟩
    · exact operated state (same ▸ after)
    · rw [written] at after
      obtain rfl := Option.some.inj after
      exact returned_distinct checked (related_distinct permuted server) returns privateKey
  · intro state after
    exact operated state (others server own ▸ after)

theorem act_secrets (c : Cluster) (action : Action) (server : NamespacedName) :
    (c.act action).secrets server = c.secrets server ∨ (c.act action).secrets server = none := by
  cases action with
  | createPeer peer => simp only [Cluster.act]; split <;> exact .inl rfl
  | editPeer name spec => exact .inl rfl
  | deletePeer name => exact .inl rfl
  | createWireguard wg => simp only [Cluster.act]; split <;> exact .inl rfl
  | editWireguard name spec => exact .inl rfl
  | deleteWireguard name =>
    by_cases here : server = name
    · exact .inr (by simp [Cluster.act, here])
    · exact .inl (by simp [Cluster.act, here])

theorem operated_act (operated : Operated server c) (action : Action) :
    Operated server (c.act action) := by
  intro state after
  rcases act_secrets c action server with same | gone
  · exact operated state (state_of_secrets same ▸ after)
  · simp [Cluster.state, gone] at after

theorem operated_history (fresh : c.secrets server = none)
    (run : ReflTransGen (AnyStep publicHalf faulty) c c') :
    Operated server c' := by
  induction run with
  | refl =>
    intro state after
    simp [Cluster.state, fresh] at after
  | tail _ step ih =>
    cases step with
    | pass pass => exact operated_pass ih pass
    | act action => exact operated_act ih action

end Operated

/-! Reading the listed keys back. -/

section Listed
variable {server : NamespacedName}

theorem listedKeys_concat (peers : List WireguardPeer) (last : WireguardPeer) :
    listedKeys (peers ++ [last]) = Function.update
      (listedKeys peers) last.key last.spec.publicKey := by
  simp [listedKeys]

/-- A key that is listed is some entry's. -/
theorem exists_of_listedKeys {peers : List WireguardPeer} (nonempty : listedKeys peers name ≠ "") :
    ∃ peer ∈ peers, peer.key = name ∧ peer.spec.publicKey = listedKeys peers name := by
  induction peers using List.reverseRec with
  | nil => simp [listedKeys] at nonempty
  | append_singleton rest last ih =>
    rw [listedKeys_concat] at nonempty ⊢
    by_cases here : name = last.key
    · exact ⟨last, by simp, here.symm, by simp [here]⟩
    · rw [Function.update_of_ne here] at nonempty ⊢
      obtain ⟨peer, member, named, keyed⟩ := ih nonempty
      exact ⟨peer, List.mem_append_left _ member, named, keyed⟩

/-- With each name once, every entry's key is listed. -/
theorem listedKeys_of_mem {peers : List WireguardPeer} (distinct : (peers.map (·.key)).Nodup)
    (member : peer ∈ peers) : listedKeys peers peer.key = peer.spec.publicKey := by
  induction peers using List.reverseRec with
  | nil => contradiction
  | append_singleton rest last ih =>
    rw [listedKeys_concat]
    rw [List.map_append, List.map_singleton, List.nodup_append] at distinct
    obtain ⟨before, -, apart⟩ := distinct
    rcases List.mem_append.mp member with inRest | isLast
    · have ne : peer.key ≠ last.key := apart _ (List.mem_map_of_mem inRest) _ (by simp)
      rw [Function.update_of_ne ne]
      exact ih before inRest
    · obtain rfl := List.mem_singleton.mp isLast
      simp

theorem listed_eq_state (c : Cluster) (server : NamespacedName) : c.listed server =
    match c.state server with
    | some state => listedKeys state.peers
    | none => fun _ => "" := by
  unfold Cluster.listed Cluster.state
  cases c.secrets server with
  | none => rfl
  | some secret =>
    cases read : secret.data.stateJSON.bind StateText.unmarshal <;>
      simp only [secretKeys, Option.bind_some, read]

theorem lists_of_listed (nonempty : publicKey ≠ "") (here : c.listed server name = publicKey) :
    Lists c server name publicKey := by
  rw [listed_eq_state] at here
  cases stated : c.state server with
  | none =>
    rw [stated] at here
    exact absurd here.symm nonempty
  | some state =>
    rw [stated] at here
    subst here
    exact ⟨state, stated, exists_of_listedKeys nonempty⟩

theorem listed_of_lists (operated : Operated server c) (listing : Lists c server name publicKey) :
    c.listed server name = publicKey := by
  obtain ⟨state, stated, peer, member, rfl, rfl⟩ := listing
  rw [listed_eq_state, stated]
  exact listedKeys_of_mem (operated state stated).1 member

/-- A state the operator wrote lists one peer under each key. -/
theorem alone_of_lists (operated : Operated server c) (listing : Lists c server name publicKey)
    (another : Lists c server other publicKey) : other = name := by
  obtain ⟨state, stated, p, inP, rfl, keyP⟩ := listing
  obtain ⟨state', stated', q, inQ, rfl, keyQ⟩ := another
  obtain rfl := Option.some.inj (stated'.symm.trans stated)
  have same : q = p := List.inj_on_of_nodup_map (operated _ stated).2 inQ inP (keyQ.trans keyP.symm)
  rw [same]

end Listed

end TunnelOperator.Controller
