import TunnelOperator.Controller.Allocation
import TunnelOperator.Controller.Cluster

/-! What one call can do to the cluster, and what no call can. -/
namespace TunnelOperator.Controller
open Program

section Effect
variable {faulty : Call → Prop} {c c' : Cluster}

/-- Everything a call can leave behind. -/
inductive Effect (c : Cluster) : Call → Cluster → Prop where
  | none : Effect c request c
  | peerStatus : Effect c (.updatePeerStatus write) (c.setPeerStatus write)
  | wireguardStatus : Effect c (.updateWireguardStatus write) (c.setWireguardStatus write)
  | created : c.secrets secret.key = none → Effect c (.createSecret secret) (c.setSecret secret)
  | updated : c.secrets secret.key ≠ none → Effect c (.updateSecret secret) (c.setSecret secret)

theorem Serves.effect (served : Serves c request reply c') : Effect c request c' := by
  cases served with
  | updatePeerStatus _ => exact .peerStatus
  | updateWireguardStatus _ => exact .wireguardStatus
  | createSecret free => exact .created free
  | updateSecret taken => exact .updated taken
  | _ => exact .none

theorem effect_of_env (answered : clusterEnv faulty c request answer c') : Effect c request c' := by
  cases answer with
  | ok reply => exact Serves.effect answered
  | error e =>
    rcases answered with ⟨-, rfl⟩ | ⟨-, -, rfl | ⟨-, reply, landed⟩⟩
    · exact .none
    · exact .none
    · exact landed.effect

end Effect

section Answers
variable {faulty : Call → Prop} {c c' : Cluster}

theorem getSecret_ok (answered : clusterEnv faulty c (.getSecret key) (.ok secret) c') :
    c.secrets key = some secret := by
  cases answered with
  | getSecret stored => exact stored

/-- A NotFound tells the truth. -/
theorem getSecret_notFound (answered : clusterEnv faulty c (.getSecret key) (.error e) c')
    (missing : e.isNotFound = true) : c.secrets key = none := by
  rcases answered with ⟨refused, -⟩ | ⟨-, honest, -⟩
  · cases refused with
    | getSecret none _ => exact none
  · exact absurd (by simpa [ApiError.isNotFound] using missing) (honest rfl)

theorem getWireguard_ok (answered : clusterEnv faulty c (.getWireguard key) (.ok wg) c') :
    c.wireguards key = some wg := by
  cases answered with
  | getWireguard stored => exact stored

theorem getWireguard_notFound (answered : clusterEnv faulty c (.getWireguard key) (.error e) c')
    (missing : e.isNotFound = true) : c.wireguards key = none := by
  rcases answered with ⟨refused, -⟩ | ⟨-, honest, -⟩
  · cases refused with
    | getWireguard none _ => exact none
  · exact absurd (by simpa [ApiError.isNotFound] using missing) (honest rfl)

theorem listPeers_ok (answered : clusterEnv faulty c .listPeers (.ok items) c') :
    items.Perm c.peers := by
  cases answered with
  | listPeers permuted => exact permuted

end Answers

section Frame

/-- No call changes a spec, a name or an age, or creates or deletes a peer or a
Wireguard. -/
structure SameSpecs (c c' : Cluster) : Prop where
  peers : c'.peers.map (·.object) = c.peers.map (·.object)
  wireguards : ∀ key, (c'.wireguards key).map (·.object) = (c.wireguards key).map (·.object)
  clusterIPs : c'.clusterIPs = c.clusterIPs

theorem SameSpecs.refl (c : Cluster) : SameSpecs c c := ⟨rfl, fun _ => rfl, rfl⟩

theorem SameSpecs.trans (first : SameSpecs c d) (second : SameSpecs d e) : SameSpecs c e where
  peers := second.peers.trans first.peers
  wireguards key := (second.wireguards key).trans (first.wireguards key)
  clusterIPs := second.clusterIPs.trans first.clusterIPs

theorem Effect.sameSpecs (effect : Effect c request c') : SameSpecs c c' := by
  cases effect with
  | none => exact .refl c
  | peerStatus => exact ⟨Cluster.putStatus_objects _ _, fun _ => rfl, rfl⟩
  | @wireguardStatus write =>
    refine ⟨rfl, fun key => ?_, rfl⟩
    by_cases here : key = write.key
    · subst here
      cases stored : c.wireguards write.key <;>
        simp [Cluster.setWireguardStatus, stored, Wireguard.object]
    · simp [Cluster.setWireguardStatus, here]
  | created _ => exact ⟨rfl, fun _ => rfl, rfl⟩
  | updated _ => exact ⟨rfl, fun _ => rfl, rfl⟩

theorem trace_sameSpecs {program : Reconciler α}
    (run : Trace (clusterEnv faulty) c program events outcome c') :
    SameSpecs c c' :=
  run.frame SameSpecs.refl SameSpecs.trans fun answered => (effect_of_env answered).sameSpecs

/-- A peer of the one cluster, as the other stores it. -/
theorem SameSpecs.stored {peer : WireguardPeer} (same : SameSpecs c c') (member : peer ∈ c.peers) :
    ∃ stored ∈ c'.peers, stored.object = peer.object := by
  have : peer.object ∈ c'.peers.map (·.object) := same.peers ▸ List.mem_map_of_mem member
  obtain ⟨stored, inside, eq⟩ := List.mem_map.mp this
  exact ⟨stored, inside, eq⟩

theorem SameSpecs.symm (same : SameSpecs c c') : SameSpecs c' c :=
  ⟨same.peers.symm, fun key => (same.wireguards key).symm, same.clusterIPs.symm⟩

end Frame

/-- The peers a pass works on have distinct names. -/
theorem related_distinct {c : Cluster} {items : List WireguardPeer} (permuted : items.Perm c.peers)
    (req : NamespacedName) : ((relatedPeers req items).map (·.key)).Nodup :=
  ((permuted.map _).nodup_iff.mpr c.distinct).sublist (List.filter_sublist.map _)

/-! The plan reads the Wireguard's name and spec, never its status. -/

section Plan
variable {first second : Wireguard}

theorem key_of_wireguard (same : first.object = second.object) : first.key = second.key := by
  have objects : ∀ wg : Wireguard, wg.object.key = wg.key := fun _ => rfl
  rw [← objects, same, objects]

theorem refusal_of_object (same : first.object = second.object) (peer : WireguardPeer) :
    refusal first peer = refusal second peer := by
  have objects : ∀ wg : Wireguard, refusal wg.object peer = refusal wg peer := fun _ => rfl
  rw [← objects, same, objects]

theorem plan_of_object (same : first.object = second.object) (current : ListedKeys)
    (peers : List WireguardPeer) : plan first current peers = plan second current peers := by
  have objects : ∀ wg : Wireguard, plan wg.object current peers = plan wg current peers :=
    fun _ => rfl
  rw [← objects, same, objects]

theorem cidr_of_object (same : first.object = second.object) :
    effectivePeerCIDR4 first = effectivePeerCIDR4 second := by
  have objects : ∀ wg : Wireguard, effectivePeerCIDR4 wg.object = effectivePeerCIDR4 wg :=
    fun _ => rfl
  rw [← objects, same, objects]

end Plan
end TunnelOperator.Controller
