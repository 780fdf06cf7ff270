import TunnelOperator.Controller.Allocation
import TunnelOperator.Controller.GatewayProofs
import TunnelOperator.Controller.Stages

/-! What a server may list. Whatever the status writes of a pass are answered, the
peers it admits, and so every state.json it writes, can be served together: no two
share a key or an address, and each address belongs to the server's own range. -/
namespace TunnelOperator.Controller
open Program

/-- The namespaces spec.allowedNamespaces admits: all, unless it says Same. -/
def AllowsNamespace (wg : Wireguard) (nameSpace : String) : Prop :=
  ∀ policy, wg.spec.allowedNamespaces = some policy → policy.from_ = .same →
    nameSpace = wg.nameSpace

theorem namespaceNotAllowed_eq_none_iff (wg : Wireguard) (peer : WireguardPeer) :
    namespaceNotAllowed wg peer = none ↔ AllowsNamespace wg peer.nameSpace := by
  unfold namespaceNotAllowed AllowsNamespace
  cases wg.spec.allowedNamespaces with
  | none => simp
  | some allowed =>
    simp only [Option.some.injEq, forall_eq']
    split
    · rename_i admits
      simp only [true_iff]
      exact admits.resolve_left ∘ fun same differs => differs same
    · rename_i refuses
      simp only [reduceCtorEq, false_iff]
      intro admits
      obtain ⟨same, apart⟩ := not_or.mp refuses
      exact apart (admits (not_not.mp same))

structure Listable (wg : Wireguard) (peers : List WireguardPeer) : Prop where
  keys : (peers.map (·.spec.publicKey)).Nodup
  addresses : (peers.map (·.status.address)).Nodup
  canonical : ∀ peer ∈ peers, CanonicalKey peer.spec.publicKey
  allowed : ∀ peer ∈ peers, AllowsNamespace wg peer.nameSpace
  inside : ∃ range, Ipam.Reads (effectivePeerCIDR4 wg) range ∧
    ∀ peer ∈ peers, range.Holds peer.status.address

theorem Listable.sublist (listable : Listable wg peers) (part : some_.Sublist peers) :
    Listable wg some_ where
  keys := listable.keys.sublist (part.map _)
  addresses := listable.addresses.sublist (part.map _)
  canonical peer member := listable.canonical peer (part.subset member)
  allowed peer member := listable.allowed peer (part.subset member)
  inside := by
    obtain ⟨range, reads, holds⟩ := listable.inside
    exact ⟨range, reads, fun peer member => holds peer (part.subset member)⟩

theorem Listable.perm (listable : Listable wg peers) (same : peers.Perm other) :
    Listable wg other where
  keys := (same.map _).nodup_iff.mp listable.keys
  addresses := (same.map _).nodup_iff.mp listable.addresses
  canonical peer member := listable.canonical peer (same.mem_iff.mpr member)
  allowed peer member := listable.allowed peer (same.mem_iff.mpr member)
  inside := by
    obtain ⟨range, reads, holds⟩ := listable.inside
    exact ⟨range, reads, fun peer member => holds peer (same.mem_iff.mpr member)⟩

theorem served_listable {current : ListedKeys} (checked : CheckedSpec wg)
    (distinct : (peers.map (·.key)).Nodup) : Listable wg (plan wg current peers).served := by
  obtain ⟨range, reads⟩ := checked.range
  have origin : ∀ served ∈ (plan wg current peers).served,
      ∃ holder ∈ admissible wg peers, served.object = holder.object ∧
        range.Holds served.status.address := by
    intro served member
    obtain ⟨holder, holding, same, held, -⟩ := mem_served reads distinct member
    exact ⟨holder, keyHolders_sublist.subset holding, same, held⟩
  have keysOf : ∀ items : List WireguardPeer,
      items.map (·.spec.publicKey) = (items.map (·.object)).map (·.spec.publicKey) := by
    intro items
    rw [List.map_map]
    rfl
  constructor
  · have part := (served_objects wg current peers).map (·.spec.publicKey)
    rw [← keysOf, ← keysOf] at part
    refine List.Nodup.sublist part (List.pairwise_map.mpr ?_)
    have nodup : (keyHolders wg current peers).Nodup :=
      List.Nodup.of_map _ (distinct.sublist ((keyHolders_sublist.trans List.filter_sublist).map _))
    refine nodup.imp_of_mem ?_
    intro p q inP inQ ne same
    exact ne (keyHolders_unique distinct inP inQ same)
  · exact List.pairwise_map.mpr (served_apart reads distinct)
  · intro peer member
    obtain ⟨holder, admitted, same, -⟩ := origin peer member
    rw [spec_of_object same]
    exact ((refusal_eq_none_iff wg holder).mp (mem_admissible.mp admitted).2).2
  · intro peer member
    obtain ⟨holder, admitted, same, -⟩ := origin peer member
    have spaces : peer.nameSpace = holder.nameSpace :=
      show peer.object.nameSpace = holder.object.nameSpace from congrArg _ same
    rw [spaces, ← namespaceNotAllowed_eq_none_iff]
    exact ((refusal_eq_none_iff wg holder).mp (mem_admissible.mp admitted).2).1
  · refine ⟨range, reads, fun peer member => ?_⟩
    obtain ⟨-, -, -, held⟩ := origin peer member
    exact held

/-- The rendering keeps what is listed about each peer, and about the server. -/
theorem desiredState_listable (listable : Listable wg peers) (privateKey : String) :
    Listable (desiredState wg privateKey peers).server
      (desiredState wg privateKey peers).peers := by
  have shown : Listable wg (peers.map rendered) := by
    constructor
    · rw [List.map_map]
      exact listable.keys
    · rw [List.map_map]
      exact listable.addresses
    · intro peer member
      obtain ⟨p, inPeers, rfl⟩ := List.mem_map.mp member
      exact listable.canonical p inPeers
    · intro peer member
      obtain ⟨p, inPeers, rfl⟩ := List.mem_map.mp member
      exact listable.allowed p inPeers
    · obtain ⟨range, reads, holds⟩ := listable.inside
      refine ⟨range, reads, fun peer member => ?_⟩
      obtain ⟨p, inPeers, rfl⟩ := List.mem_map.mp member
      exact holds p inPeers
  have sorted := shown.perm (List.perm_insertionSort NotAfter (peers.map rendered)).symm
  exact ⟨sorted.keys, sorted.addresses, sorted.canonical, sorted.allowed, sorted.inside⟩

/-- A list of peers names each peer once. -/
def Distinct : (request : Call) → Answer request → Prop
  | .listPeers, .ok items => (items.map (·.key)).Nodup
  | _, _ => True

def WritesListable : Call → Prop
  | .createSecret secret | .updateSecret secret =>
    ∃ state, secret.data.stateJSON = some (.marshal state) ∧ Listable state.server state.peers
  | _ => True

theorem permits_writesListable : Permits WritesListable := by
  constructor <;> intros <;> trivial

theorem reconcilePeers_listable (checked : CheckedSpec wg) (req : NamespacedName) :
    (reconcilePeers req wg).Safe Distinct WritesListable (Listable wg) := by
  refine reconcilePeers_safe permits_writesListable req wg fun current items _ distinct => ?_
  refine (execute_safe _).weaken ?_ fun admitted returns => ?_
  · rintro request ⟨peer, -, rfl⟩
    trivial
  · have ours : ((relatedPeers req items).map (·.key)).Nodup :=
      List.Nodup.sublist (List.filter_sublist.map _) distinct
    exact (served_listable checked ours).sublist returns.1

theorem reconcile_listable (publicHalf : Wgtypes.Key → Wgtypes.Key) (req : NamespacedName) :
    (reconcile publicHalf req).Safe Distinct WritesListable fun _ => True := by
  rw [reconcile_eq]
  refine (prepare_safe permits_writesListable req fun _ _ _ _ _ _ _ _ => trivial).bind
    fun prepared known => ?_
  cases prepared with
  | ended result => simp
  | rendered wg svc =>
    have checked := checkedSpec (known wg svc rfl).2.1.spec
    refine (reconcilePeers_listable checked req).bind fun admitted listable => ?_
    refine serve_safe permits_writesListable publicHalf wg svc admitted
      (fun _ _ _ _ => trivial) ?_ ?_
    · exact fun secret _ => ⟨_, rfl, desiredState_listable listable _⟩
    · exact fun key => ⟨_, rfl, desiredState_listable listable _⟩

/-- Every successful reconcilePeers returns peers that can be listed together, and so
does every Secret write carry a state that can be served, whatever the environment
answers, as long as a list names each peer once. -/
theorem admitted_and_written_peers_listable {S : Type} (env : Environment Call Answer S)
    (lists : ∀ s items t, env s .listPeers (.ok items) t → (items.map (·.key)).Nodup) :
    (∀ wg req s checks s' u events admitted t, Trace env s (specProblem wg) checks (.done none) s' →
      Trace env u (reconcilePeers req wg) events (.done admitted) t → Listable wg admitted) ∧
    (∀ publicHalf req s events outcome t, Trace env s (reconcile publicHalf req) events outcome t →
      ∀ event ∈ events, ∀ secret, event.1 = .createSecret secret ∨ event.1 = .updateSecret secret →
        ∃ state, secret.data.stateJSON = some (.marshal state) ∧
          Listable state.server state.peers) := by
  have answers : ∀ {s request answer t}, env s request answer t → Distinct request answer := by
    intro s request answer t answered
    unfold Distinct
    split
    · exact lists _ _ _ answered
    · trivial
  constructor
  · intro wg req s checks s' u events admitted t checking run
    have permits : Permits fun _ => True := by constructor <;> intros <;> trivial
    have passed := (checking.safe_of_expected (specProblem_safe permits wg) answers).2 none rfl rfl
    exact (run.safe_of_expected (reconcilePeers_listable (checkedSpec passed) req) answers).2
      admitted rfl
  · intro publicHalf req s events outcome t run event member secret written
    have calls := (run.safe_of_expected (reconcile_listable publicHalf req) answers).1 event member
    rcases written with write | write <;> rw [write] at calls <;> exact calls

section Sample

def sampleServer : Wireguard where
  name := "gw"
  nameSpace := "vpn"
  generation := 1
  spec := ⟨"10.8.0.0/24", ["10.96.0.0/12"], .empty, [], [], ⟨.empty⟩, none⟩
  status := ⟨pending, "", "", "", []⟩

def samplePeer (name : String) (created : Int) (publicKey : String) : WireguardPeer where
  name := name
  nameSpace := "apps"
  generation := 1
  creationTimestamp := created
  spec := ⟨publicKey, "gw", "vpn"⟩
  status := .empty

def firstKey : String := "AAAAAAAAAAAAAAAAAAAAAAAAAAAAAAAAAAAAAAAAAAA="
def secondKey : String := "AQAAAAAAAAAAAAAAAAAAAAAAAAAAAAAAAAAAAAAAAAA="

/-- A cluster without Secret in which two new peers wait for the server. -/
def sampleAnswer : (request : Call) → Answer request
  | .getWireguard _ => .ok sampleServer
  | .getSecret _ => .error ⟨.notFound, "secret not found"⟩
  | .listPeers => .ok [samplePeer "laptop" 7 firstKey, samplePeer "phone" 8 secondKey]
  | .updatePeerStatus _ | .updateWireguardStatus _ | .createSecret _ | .updateSecret _
  | .updatePod _ => .ok ()
  | .applyService svc => .ok { svc with clusterIP := "10.96.0.10" }
  | .applyDeployment dep => .ok dep
  | .generatePrivateKey => .ok ⟨List.replicate 32 1, by decide⟩
  | .listPods .. => .ok []

def sampleEnv : Environment Call Answer Unit :=
  fun _ request answer _ => answer = sampleAnswer request

def sampleHandler : Handler Call Answer Unit := fun _ request => (sampleAnswer request, ())

theorem admitted_listable_for_two_new_peers : ∃ admitted : List WireguardPeer,
    admitted.map (·.status.address) = ["10.8.0.2", "10.8.0.3"] ∧
      Listable sampleServer admitted := by
  have replay : ∀ {α} (program : Reconciler α), Trace sampleEnv () program _ _ _ :=
    fun program => play_trace sampleHandler (fun _ _ => rfl) program ()
  have checks : ((specProblem sampleServer).play sampleHandler ()).2.1.value = some none := by
    decide +kernel
  have addresses : ((reconcilePeers sampleServer.key sampleServer).play sampleHandler
      ()).2.1.value.map
      (·.map (·.status.address)) = some ["10.8.0.2", "10.8.0.3"] := by decide +kernel
  obtain ⟨admitted, returned, shown⟩ := Option.map_eq_some_iff.mp addresses
  have checking := replay (specProblem sampleServer)
  have run := replay (reconcilePeers sampleServer.key sampleServer)
  rw [Outcome.value_eq_some.mp checks] at checking
  rw [Outcome.value_eq_some.mp returned] at run
  refine ⟨admitted, shown, ?_⟩
  refine (admitted_and_written_peers_listable sampleEnv ?_).1 _ _ _ _ _ _ _ _ _ checking run
  rintro s items t listed
  obtain rfl := Except.ok.inj listed
  decide

end Sample
end TunnelOperator.Controller
