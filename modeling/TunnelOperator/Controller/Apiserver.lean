import TunnelOperator.Controller.Cluster

/-! An apiserver that can be run: it lists the peers as stored, rolls every Deployment
out at once and loses exactly the peer writes it is told to lose. Passes played against
it are passes of the cluster. -/
namespace TunnelOperator.Controller
open Program Resources

def notFound : ApiError := ⟨.notFound, "not found"⟩
def alreadyExists : ApiError := ⟨.alreadyExists, "already exists"⟩

/-- The key GeneratePrivateKey draws here, clamped as it clamps, and its public half. -/
def drawnKey : Wgtypes.Key := ⟨0 :: List.replicate 30 1 ++ [65], by decide⟩

def drawnPublicKey : Wgtypes.Key :=
  ⟨[164, 224, 146, 146, 182, 81, 194, 120, 185, 119, 44, 86, 159, 95, 169, 187,
    19, 217, 6, 180, 106, 182, 140, 157, 249, 220, 43, 68, 9, 248, 162, 9], by decide⟩

def orNotFound : Option α → Except ApiError α
  | some value => .ok value
  | none => .error notFound

def apiserver (lost : WireguardPeer → Option ApiError) : Handler Call Answer Cluster :=
    fun c request =>
  match request with
  | .getWireguard key => (orNotFound (c.wireguards key), c)
  | .getSecret key => (orNotFound (c.secrets key), c)
  | .listPeers => (.ok c.peers, c)
  | .updatePeerStatus write =>
    match lost write with
    | some e => (.error e, c)
    | none =>
      if ∃ peer ∈ c.peers, peer.key = write.key then (.ok (), c.setPeerStatus write)
      else (.error notFound, c)
  | .updateWireguardStatus write =>
    if c.wireguards write.key ≠ none then (.ok (), c.setWireguardStatus write)
      else (.error notFound, c)
  | .applyService svc => (.ok { svc with clusterIP := c.clusterIPs ⟨svc.nameSpace, svc.name⟩ }, c)
  | .applyDeployment dep => (.ok { dep with readyReplicas := 1, updatedReplicas := 1 }, c)
  | .createSecret secret =>
    if c.secrets secret.key = none then (.ok (), c.setSecret secret) else (.error alreadyExists, c)
  | .updateSecret secret =>
    if c.secrets secret.key ≠ none then (.ok (), c.setSecret secret) else (.error notFound, c)
  | .generatePrivateKey => (.ok drawnKey, c)
  | .listPods .. => (.ok [], c)
  | .updatePod _ => (.ok (), c)

/-- The answers are the cluster's, as long as the writes it loses may be lost. -/
theorem apiserver_answers {lost : WireguardPeer → Option ApiError} {faulty : Call → Prop}
    (may : ∀ write e, lost write = some e → faulty (.updatePeerStatus write)) (c : Cluster)
    (request : Call) :
    clusterEnv faulty c request (apiserver lost c request).1 (apiserver lost c request).2 := by
  cases request with
  | getWireguard key =>
    cases stored : c.wireguards key with
    | none => simpa [apiserver, stored, orNotFound] using .inl ⟨.getWireguard stored rfl, rfl⟩
    | some wg => simpa [apiserver, stored, orNotFound] using .getWireguard stored
  | getSecret key =>
    cases stored : c.secrets key with
    | none => simpa [apiserver, stored, orNotFound] using .inl ⟨.getSecret stored rfl, rfl⟩
    | some secret => simpa [apiserver, stored, orNotFound] using .getSecret stored
  | listPeers => exact .listPeers (.refl _)
  | updatePeerStatus write =>
    simp only [apiserver]
    cases loses : lost write with
    | some e => exact .inr ⟨may write e loses, by simp [Call.isRead], .inl rfl⟩
    | none =>
      dsimp only
      split
      · rename_i stored
        exact .updatePeerStatus stored
      · rename_i missing
        exact .inl ⟨.updatePeerStatus (by simpa using missing) rfl, rfl⟩
  | updateWireguardStatus write =>
    simp only [apiserver]
    split
    · rename_i stored
      exact .updateWireguardStatus stored
    · rename_i missing
      exact .inl ⟨.updateWireguardStatus (not_not.mp missing) rfl, rfl⟩
  | applyService svc => exact .applyService svc
  | applyDeployment dep => exact .applyDeployment dep _
  | createSecret secret =>
    simp only [apiserver]
    split
    · rename_i free
      exact .createSecret free
    · rename_i taken
      exact .inl ⟨.createSecret taken rfl, rfl⟩
  | updateSecret secret =>
    simp only [apiserver]
    split
    · rename_i stored
      exact .updateSecret stored
    · rename_i missing
      exact .inl ⟨.updateSecret (not_not.mp missing) rfl, rfl⟩
  | generatePrivateKey => exact .generatePrivateKey _
  | listPods nameSpace labels => exact .listPods _
  | updatePod pod => exact .updatePod pod

def nothingLost (_ : WireguardPeer) : Option ApiError := none

theorem nothingLost_may {faulty : Call → Prop} (write : WireguardPeer) (e : ApiError)
    (lost : nothingLost write = some e) : faulty (.updatePeerStatus write) :=
  nomatch lost

/-- The cluster after a pass for `req` against this apiserver; only evaluation in the
kernel looks inside. -/
@[irreducible] def afterPass (lost : WireguardPeer → Option ApiError) (req : NamespacedName)
    (c : Cluster) : Cluster :=
  ((reconcile (fun _ => drawnPublicKey) req).play (apiserver lost) c).2.2

/-- The calls of that pass. -/
@[irreducible] def passEvents (lost : WireguardPeer → Option ApiError) (req : NamespacedName)
    (c : Cluster) :
    List (Event Call Answer) :=
  ((reconcile (fun _ => drawnPublicKey) req).play (apiserver lost) c).1

theorem trace_afterPass (lost : WireguardPeer → Option ApiError) {faulty : Call → Prop}
    (may : ∀ write e, lost write = some e → faulty (.updatePeerStatus write)) (req : NamespacedName)
    (c : Cluster) : ∃ outcome, outcome ≠ .cut ∧
      Trace (clusterEnv faulty) c (reconcile (fun _ => drawnPublicKey) req)
      (passEvents lost req c) outcome (afterPass lost req c) := by
  unfold afterPass passEvents
  exact ⟨_, play_whole _ _ _, play_trace (apiserver lost) (apiserver_answers may) _ c⟩

theorem pass_afterPass (lost : WireguardPeer → Option ApiError) {faulty : Call → Prop}
    (may : ∀ write e, lost write = some e → faulty (.updatePeerStatus write)) (req : NamespacedName)
    (c : Cluster) : Pass (fun _ => drawnPublicKey) faulty req c (afterPass lost req c) := by
  obtain ⟨outcome, -, run⟩ := trace_afterPass lost may req c
  exact ⟨_, outcome, run⟩

end TunnelOperator.Controller
