import TunnelOperator.Sidecar.Peer

/-! The WireguardPeer of one name as an apiserver keeps it, and what a pass of a client asks
of it. -/
namespace TunnelOperator.Sidecar
open Program

/-! What the decision looks at. -/

/-- The peer's controller is the v1 Pod `ctl` refers to. -/
def PodControls (ctl : OwnerReference) (obj : OwnedPeer) : Prop :=
  getControllerOf obj = some ctl ∧ ctl.apiVersion = "v1" ∧ ctl.kind = "Pod"

/-- The peer is the one this pod registers: the pod controls it, and it carries the pod's
key and gateway. -/
structure Registers (cfg : Config) (publicKey : String) (obj : OwnedPeer) : Prop where
  controlled : ∃ ctl, PodControls ctl obj ∧ ctl.uid = cfg.podUID
  publicKey : obj.peer.spec.publicKey = publicKey
  wireguardRef : obj.peer.spec.wireguardRef = cfg.wireguard
  wireguardNamespace : obj.peer.spec.wireguardNamespace = cfg.wireguardNamespace

theorem decidePeer_keep (decided : decidePeer (some obj) (desiredPeer cfg publicKey) = .keep) :
    Registers cfg publicKey obj := by
  simp only [decidePeer] at decided
  split at decided
  · contradiction
  · rename_i ctl found
    split at decided
    · contradiction
    rename_i pod
    split at decided
    · contradiction
    rename_i own
    split at decided
    · contradiction
    rename_i same
    simp only [ne_eq, not_or, not_not] at pod own same
    exact ⟨⟨ctl, ⟨found, pod⟩, Option.some.inj own⟩, same.1, same.2.1, same.2.2⟩

theorem decidePeer_replace
    (decided : decidePeer (some obj) (desiredPeer cfg publicKey) = .replace) :
    (∃ ctl, PodControls ctl obj) ∧ ¬ Registers cfg publicKey obj := by
  simp only [decidePeer] at decided
  split at decided
  · contradiction
  · rename_i ctl found
    split at decided
    · contradiction
    rename_i pod
    simp only [ne_eq, not_or, not_not] at pod
    refine ⟨⟨ctl, found, pod⟩, fun own => ?_⟩
    obtain ⟨ctl', ⟨found', -⟩, uid⟩ := own.controlled
    obtain rfl := Option.some.inj (found.symm.trans found')
    rw [if_neg (by simp [uid, desiredPeer, getControllerOf])] at decided
    rw [if_neg (by simp [own.publicKey, own.wireguardRef, own.wireguardNamespace, desiredPeer])]
      at decided
    contradiction

/-- The decision depends on the owner references and the spec alone. -/
theorem decidePeer_congr (owners : obj.ownerReferences = obj'.ownerReferences)
    (spec : obj.peer.spec = obj'.peer.spec) (want : OwnedPeer) :
    decidePeer (some obj) want = decidePeer (some obj') want := by
  simp only [decidePeer, getControllerOf, owners, spec]
  rfl

/-! The registry. -/

structure Client where
  cfg : Config
  key : Wgtypes.Key

/-- The WireguardPeer of one name: what is stored, every version ever stored, and what the
clients have deleted and applied. -/
structure Registry (ι : Type) where
  stored : Option OwnedPeer
  history : List OwnedPeer
  deleted : List (ι × OwnedPeer)
  applied : List (ι × Wgtypes.Key × Tunnel)

def Registry.store (s : Registry ι) (obj : OwnedPeer) : Registry ι :=
  { s with stored := some obj, history := obj :: s.history }

def Registry.Fresh (s : Registry ι) (uid : String) : Prop := ∀ obj ∈ s.history, obj.uid ≠ uid

/-- The object as the apiserver stores a create. -/
def born (obj : OwnedPeer) (uid : String) (created : Int) : OwnedPeer :=
  { obj with uid := uid, peer := { obj.peer with generation := 1, creationTimestamp := created, status := .empty } }

/-- A read returns any version ever stored, or none. A delete needs the UID it names, a
create a free name; either may have landed although it is answered with an error. -/
inductive RegistryAnswers (i : ι) (s : Registry ι) :
    (request : SidecarCall) → SidecarAnswer request → Registry ι → Prop where
  | read (version : obj ∈ s.history) : RegistryAnswers i s (.getPeer key) (.ok obj) s
  | unread (e : ApiError) : RegistryAnswers i s (.getPeer key) (.error e) s
  | deleted (present : s.stored = some obj) (same : obj.uid = uid)
      (answer : SidecarAnswer (.deletePeer key uid)) :
      RegistryAnswers i s (.deletePeer key uid) answer
        { s with stored := none, deleted := (i, obj) :: s.deleted }
  | undeleted (e : ApiError) : RegistryAnswers i s (.deletePeer key uid) (.error e) s
  | created (absent : s.stored = none) (fresh : s.Fresh uid) (at_ : Int)
      (answer : SidecarAnswer (.createPeer obj)) :
      RegistryAnswers i s (.createPeer obj) answer (s.store (born obj uid at_))
  | uncreated (e : ApiError) : RegistryAnswers i s (.createPeer obj) (.error e) s
  | applied (answer : SidecarAnswer (.apply key t)) :
      RegistryAnswers i s (.apply key t) answer { s with applied := (i, key, t) :: s.applied }

/-- What others do: create and delete, and update without touching owners and spec. -/
inductive Others (s : Registry ι) : Registry ι → Prop where
  | create (absent : s.stored = none) (fresh : s.Fresh obj.uid) : Others s (s.store obj)
  | update (present : s.stored = some obj) (same : new.uid = obj.uid)
      (owners : new.ownerReferences = obj.ownerReferences) (spec : new.peer.spec = obj.peer.spec) :
      Others s (s.store new)
  | delete : Others s { s with stored := none }

def emptyRegistry (ι : Type) : Registry ι := ⟨none, [], [], []⟩

section
variable {ι : Type} {publicHalf : Wgtypes.Key → Wgtypes.Key} {clients : ι → Client}
    {s t : Registry ι}

def wanted (publicHalf : Wgtypes.Key → Wgtypes.Key) (client : Client) : OwnedPeer :=
  desiredPeer client.cfg (publicHalf client.key).string

/-- What a client may ask for, given what has been stored so far. -/
def Entitled (publicHalf : Wgtypes.Key → Wgtypes.Key) (client : Client) (s : Registry ι) :
  SidecarCall → Prop
  | .deletePeer _ uid => ∃ obj ∈ s.history, obj.uid = uid ∧
    decidePeer (some obj) (wanted publicHalf client) = .replace
  | .apply key t => key = client.key ∧ ∃ obj ∈ s.history,
      decidePeer (some obj) (wanted publicHalf client) = .keep ∧
      desiredTunnel obj.peer = .ok t
  | _ => True

def Recorded (s : Registry ι) : (request : SidecarCall) → SidecarAnswer request → Prop
  | .getPeer _, .ok obj => obj ∈ s.history
  | _, _ => True

section Pass
variable {client : Client}

theorem existingPeer_recorded (key : NamespacedName) :
    (existingPeer key).Safe (Recorded s) (Entitled publicHalf client s)
      fun existing => ∀ obj, existing = some obj → obj ∈ s.history := by
  refine ⟨trivial, fun answer known => ?_⟩
  cases answer with
  | ok obj =>
    rintro found ⟨⟩
    exact known
  | error e =>
    show Program.Safe _ _ _ (if e.isNotFound = true then _ else _)
    split
    · exact nofun
    · trivial

theorem deleteStale_entitled (key : NamespacedName) (obj : OwnedPeer) (member : obj ∈ s.history)
    (decided : decidePeer (some obj) (wanted publicHalf client) = .replace) :
    (deleteStalePeer key (some obj)).Safe (Recorded s)
    (Entitled publicHalf client s) fun _ => True := by
  refine ⟨⟨obj, member, rfl, decided⟩, fun answer _ => ?_⟩
  cases answer with
  | ok => trivial
  | error e =>
    show Program.Safe _ _ _ (if (e.isNotFound || e.isConflict) = true then _ else _)
    split <;> trivial

theorem createWanted_entitled (key : NamespacedName) (want : OwnedPeer) :
    (createWanted key want).Safe (Recorded s) (Entitled publicHalf client s) fun _ => True := by
  refine ⟨trivial, fun answer _ => ?_⟩
  cases answer with
  | ok => trivial
  | error e =>
    show Program.Safe _ _ _ (if e.reason = .alreadyExists then _ else _)
    split <;> trivial

theorem ensurePeer_entitled (publicHalf : Wgtypes.Key → Wgtypes.Key) (client : Client)
    (s : Registry ι) :
    (ensurePeer client.cfg (publicHalf client.key).string).Safe (Recorded s)
    (Entitled publicHalf client s) fun kept => ∀ obj, kept = some obj → obj ∈ s.history ∧
        decidePeer (some obj) (wanted publicHalf client) = .keep := by
  refine (existingPeer_recorded _).bind fun existing known => ?_
  dsimp only
  split
  · rename_i decided
    rintro obj rfl
    exact ⟨known obj rfl, decided⟩
  · trivial
  · rename_i decided
    cases existing with
    | none => cases decided
    | some obj =>
      refine (deleteStale_entitled _ obj (known obj rfl) decided).bind fun _ _ => ?_
      exact (createWanted_entitled _ _).bind fun _ _ => nofun
  · exact (createWanted_entitled _ _).bind fun _ _ => nofun

/-- One pass asks for nothing else. -/
theorem step_entitled (publicHalf : Wgtypes.Key → Wgtypes.Key) (client : Client) (s : Registry ι) :
    (step publicHalf client.cfg client.key).Safe (Recorded s)
    (Entitled publicHalf client s) fun _ => True := by
  refine (ensurePeer_entitled publicHalf client s).bind fun kept known => ?_
  cases kept with
  | none => trivial
  | some obj =>
    obtain ⟨member, decided⟩ := known obj rfl
    dsimp only
    split
    · trivial
    · rename_i t read
      refine ⟨⟨rfl, obj, member, decided, read⟩, fun answer _ => ?_⟩
      cases answer <;> trivial

end Pass

end
end TunnelOperator.Sidecar
