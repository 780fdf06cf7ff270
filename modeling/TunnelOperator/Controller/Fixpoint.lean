import TunnelOperator.Controller.Convergence

/-! A clean pass over a fixed cluster writes no peer and leaves the Secret as it is. -/
namespace TunnelOperator.Controller
open Program Resources

section Quiet
variable {c c' : Cluster} {req : NamespacedName} {wg : Wireguard} {range : Ipam.PeerCIDR}
  {id : ServerIdentity} {S items : List WireguardPeer} {secret : Secret}

theorem notReadyWrite_of_matches (recorded : peerStatusMatches peer nr = true) :
    notReadyWrite peer nr = none :=
  if_pos recorded

theorem fixed_keyHolder (permuted : items.Perm c.peers)
    (holding : h ∈ keyHolders wg (c.listed req) (relatedPeers req items)) :
    h ∈ keyHolders wg (c.listed req) (relatedPeers req c.peers) :=
  (mem_keyHolders_perm (related_perm permuted req) (related_distinct permuted req)).mp holding

/-- In a fixed cluster every refusal of the plan is recorded already. -/
theorem Fixed.refusal_recorded (fixed : Fixed req wg range id c S)
    (reads : Ipam.Reads (effectivePeerCIDR4 wg) range) (permuted : items.Perm c.peers)
    (refusing : (peer, nr) ∈ (plan wg (c.listed req) (relatedPeers req items)).refusals) :
    peerStatusMatches peer nr = true := by
  have distinct := related_distinct permuted req
  have same := related_perm permuted req
  rcases mem_refusals.mp refusing with here | here | here
  · obtain ⟨member, problem⟩ := mem_refused.mp here
    exact fixed.refused peer (same.mem_iff.mp member) nr problem
  · obtain ⟨holder, holding, competes, keyed, apart, rfl⟩ := (mem_keyConflicts distinct).mp here
    obtain ⟨member, passes⟩ := mem_admissible.mp competes
    exact fixed.outranked peer (same.mem_iff.mp member) passes holder
      (fixed_keyHolder permuted holding) keyed apart
  · exact absurd here (fixed.toTidy.no_addressConflict reads permuted)

/-- Its allocation leaves the listed peers as they are and finds no address for others. -/
theorem Fixed.allotted (fixed : Fixed req wg range id c S)
    (reads : Ipam.Reads (effectivePeerCIDR4 wg) range) (permuted : items.Perm c.peers)
    (member : allotment ∈ (plan wg (c.listed req) (relatedPeers req items)).allotments) :
    (∃ s ∈ S, allotment = .unchanged s) ∨ ∃ peer, allotment = .exhausted peer ∧
      peerStatusMatches peer (addressPoolExhausted (effectivePeerCIDR4 wg)) = true := by
  rcases fixed.toTidy.allotted reads permuted member with
    settled | ⟨h, holding, absent, empty, used, allots, covers, reserved⟩
  · exact .inl settled
  · obtain ⟨recorded, full⟩ := fixed.waiting h (fixed_keyHolder permuted holding) absent
    refine .inr ⟨clearUnusable (effectivePeerCIDR4 wg) h, ?_, recorded⟩
    cases allots with
    | exhausted _ _ => rfl
    | fresh _ free =>
      obtain ⟨usable, unused⟩ := Ipam.allocateIP_ok reads reserved free
      obtain ⟨s, listing, same⟩ := full _ usable
      exact absurd (same ▸ covers s listing) unused
    | renewed held _ => exact absurd empty held
    | unchanged held _ => exact absurd empty held

theorem Fixed.served_perm (fixed : Fixed req wg range id c S)
    (reads : Ipam.Reads (effectivePeerCIDR4 wg) range)
    (permuted : items.Perm c.peers) :
    (plan wg (c.listed req) (relatedPeers req items)).served.Perm S := by
  have names : ((plan wg (c.listed req) (relatedPeers req items)).served.map (·.key)).Nodup :=
    served_names (related_distinct permuted req) (c.listed req)
  refine (List.perm_ext_iff_of_nodup (names.of_map _) (fixed.keys.of_map _)).mpr fun s => ⟨?_, ?_⟩
  · intro serving
    obtain ⟨allotment, allotted, serves⟩ := mem_plan_served.mp serving
    rcases fixed.allotted reads permuted allotted with ⟨s', listing, rfl⟩ | ⟨peer, rfl, -⟩
    · obtain rfl := Option.some.inj serves
      exact listing
    · contradiction
  · exact fixed.toTidy.served reads permuted

/-- So the pass writes nothing. -/
theorem Fixed.no_writes (fixed : Fixed req wg range id c S)
    (reads : Ipam.Reads (effectivePeerCIDR4 wg) range) (permuted : items.Perm c.peers) :
    passWrites wg id (plan wg (c.listed req) (relatedPeers req items)) = [] := by
  have planned : (plan wg (c.listed req) (relatedPeers req items)).writes
      (effectivePeerCIDR4 wg) = [] := by
    apply List.eq_nil_iff_forall_not_mem.mpr
    intro write member
    rcases mem_writes.mp member with ⟨peer, nr, refusing, written⟩ | ⟨allotment, allotted, written⟩
    · rw [notReadyWrite_of_matches (fixed.refusal_recorded reads permuted refusing)] at written
      contradiction
    · rcases fixed.allotted reads permuted allotted with ⟨s, -, rfl⟩ | ⟨peer, rfl, recorded⟩
      · contradiction
      · rw [Allotment.write, notReadyWrite_of_matches recorded] at written
        contradiction
  have synced : syncs wg id (plan wg (c.listed req) (relatedPeers req items)).served = [] := by
    rw [syncs, List.map_eq_nil_iff, List.filter_eq_nil_iff]
    intro s serving
    have listing := (fixed.served_perm reads permuted).mem_iff.mp serving
    simp [(fixed.ready s listing).2.2]
  rw [passWrites, planned, synced, List.append_nil]

end Quiet

/-! Runs of clean passes. -/

section Going
variable {c c' : Cluster} {req : NamespacedName} {wg : Wireguard} {range : Ipam.PeerCIDR}
  {id : ServerIdentity}
  {S items : List WireguardPeer} {secret : Secret} {publicHalf : Wgtypes.Key → Wgtypes.Key}

/-- A pass does not read the Wireguard's status. -/
theorem Passed.of_object {first second : Wireguard} (same : first.object = second.object)
    (passed : Passed req first secret items c events c') :
    Passed req second secret items c events c' := by
  have whole : second = { first with status := second.status } := by
    have objects : ∀ wg : Wireguard, { wg.object with status := second.status } =
        { wg with status := second.status } :=
      fun _ => rfl
    rw [← objects first, same]
    rfl
  rw [whole]
  exact ⟨passed.permuted, passed.peers, passed.secrets, passed.started, passed.writes, passed.specs⟩

/-- The server stays renderable under its spec, and its identity stays the same. -/
structure Going (req : NamespacedName) (wg : Wireguard) (id : ServerIdentity) (c : Cluster)
    (secret : Secret) :
    Prop where
  renders : ∃ current, Renderable req current c ∧ current.object = wg.object
  minted : c.secrets req = some secret
  identity : identityOf (assigned c wg) secret = id

theorem Going.pass (going : Going req wg id c secret)
    (pass : CleanPass publicHalf req c events c') :
    ∃ items, Passed req wg secret items c events c' := by
  obtain ⟨current, renderable, same⟩ := going.renders
  obtain ⟨items, passed⟩ := clean_pass renderable going.minted pass
  exact ⟨items, passed.of_object same⟩

theorem renderable_passed (renderable : Renderable req wg c) (minted : c.secrets req = some secret)
    (passed : Passed req wg secret items c events c') :
    ∃ status, Renderable req { wg with status := status } c' := by
  obtain ⟨status, started, stored⟩ := passed.started
  have same : assigned c' wg = assigned c wg := by
    unfold assigned
    rw [passed.specs.clusterIPs]
  refine ⟨status, ⟨stored, renderable.spec, ?_, ?_⟩, started⟩
  · intro src member name named other here
    have here : Function.update c.secrets req (some (keptSecret wg secret
        (plan wg (secretKeys secret) (relatedPeers req items)).served))
          ⟨wg.nameSpace, name⟩ = some other := by
      rw [← passed.secrets]
      exact here
    by_cases own : (⟨wg.nameSpace, name⟩ : NamespacedName) = req
    · rw [own, Function.update_self] at here
      obtain rfl := Option.some.inj here
      unfold keptSecret
      split
      · exact renderable.env src member name named secret (own ▸ minted)
      · exact reservedInKeys_rendered src.namePrefix
    · rw [Function.update_of_ne own] at here
      exact renderable.env src member name named other here
  · have inside := renderable.inside
    rw [← same] at inside
    exact inside

theorem keptSecret_publicKey (wg : Wireguard) (secret : Secret) (admitted : List WireguardPeer) :
    (keptSecret wg secret admitted).data.publicKey.getD "" = secret.data.publicKey.getD "" := by
  unfold keptSecret
  split <;> rfl

theorem keptSecret_privateKey (wg : Wireguard) (secret : Secret) (admitted : List WireguardPeer) :
    (keptSecret wg secret admitted).data.privateKey.getD "" = secret.data.privateKey.getD "" := by
  unfold keptSecret
  split <;> rfl

theorem Going.next (going : Going req wg id c secret)
    (passed : Passed req wg secret items c events c') :
    Going req wg id c' (keptSecret wg secret
      (plan wg (secretKeys secret) (relatedPeers req items)).served) := by
  obtain ⟨current, renderable, same⟩ := going.renders
  obtain ⟨status, renderable'⟩ :=
    renderable_passed renderable going.minted (passed.of_object same.symm)
  refine ⟨⟨_, renderable', same⟩, ?_, ?_⟩
  · rw [passed.secrets, Function.update_self]
  · rw [← going.identity]
    simp only [identityOf, keptSecret_publicKey, assigned, passed.specs.clusterIPs]

/-- state.json is the state that lists `S`. -/
def StateOf (wg : Wireguard) (secret : Secret) (S : List WireguardPeer) : Prop :=
  secret.data.stateJSON = some (.marshal (desiredState wg (secret.data.privateKey.getD "") S))

theorem stateOf_passed (wg : Wireguard) (secret : Secret) (p : Plan) (id : ServerIdentity) :
    StateOf wg (keptSecret wg secret p.served) (synced wg id p) := by
  have shown : (synced wg id p).map rendered = p.served.map rendered := by
    rw [synced, List.map_map]
    rfl
  rw [StateOf, keptSecret_state, keptSecret_privateKey]
  simp only [desiredState, shown]

/-- A fixed cluster stays as it is. -/
theorem fixed_stays (fixed : Fixed req wg range id c S) (going : Going req wg id c secret)
    (state : StateOf wg secret S) (reads : Ipam.Reads (effectivePeerCIDR4 wg) range)
    (passed : Passed req wg secret items c events c') :
    peerWrites events = [] ∧ c'.peers = c.peers ∧ c'.secrets = c.secrets := by
  have silent := fixed.no_writes reads passed.permuted
  have served := fixed.served_perm reads passed.permuted
  rw [listed_of_secret going.minted] at silent served
  have names : ((plan wg (secretKeys secret) (relatedPeers req items)).served.map (·.key)).Nodup :=
    served_names (related_distinct passed.permuted req) (secretKeys secret)
  refine ⟨?_, ?_, ?_⟩
  · rw [passed.writes, going.identity, silent]
  · rw [passed.peers, going.identity, silent]
    exact List.map_id c.peers
  · have kept : keptSecret wg secret (plan wg (secretKeys secret) (relatedPeers req items)).served =
      secret := by
      apply if_pos
      rw [desiredState_perm names served]
      exact state
    rw [passed.secrets, kept, ← going.minted, Function.update_eq_self]

end Going

end TunnelOperator.Controller
