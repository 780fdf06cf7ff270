import TunnelOperator.Sidecar.Registry
import TunnelOperator.Library.Interleaving

/-! The sidecars of pods with one name, side by side: what they delete, and from what they
configure their tunnels. -/
namespace TunnelOperator.Sidecar
open Program

section
variable {ι : Type} {publicHalf : Wgtypes.Key → Wgtypes.Key} {clients : ι → Client}
    {s t : Registry ι}

/-- Versions of one UID agree in owners and spec, and the clients have kept to what they may
do. -/
structure Orderly (publicHalf : Wgtypes.Key → Wgtypes.Key) (clients : ι → Client) (s : Registry ι) :
    Prop where
  identity : ∀ obj ∈ s.history, ∀ obj' ∈ s.history, obj.uid = obj'.uid →
    obj.ownerReferences = obj'.ownerReferences ∧ obj.peer.spec = obj'.peer.spec
  stored : ∀ obj, s.stored = some obj → obj ∈ s.history
  deleted : ∀ entry ∈ s.deleted, (∃ ctl, PodControls ctl entry.2) ∧
    ¬ Registers (clients entry.1).cfg (publicHalf (clients entry.1).key).string entry.2
  applied : ∀ entry ∈ s.applied, entry.2.1 = (clients entry.1).key ∧ ∃ obj ∈ s.history,
    Registers (clients entry.1).cfg (publicHalf (clients entry.1).key).string obj ∧
      desiredTunnel obj.peer = .ok entry.2.2

/-- A new version keeps the order if it agrees with the older ones of its UID. -/
theorem Orderly.store (orderly : Orderly publicHalf clients s)
    (agrees : ∀ old ∈ s.history, old.uid = obj.uid →
    old.ownerReferences = obj.ownerReferences ∧ old.peer.spec = obj.peer.spec) :
    Orderly publicHalf clients (s.store obj) where
  identity := by
    intro first here second there same
    rcases List.mem_cons.mp here with rfl | old <;> rcases List.mem_cons.mp there with rfl | old'
    · exact ⟨rfl, rfl⟩
    · exact ((agrees second old' same.symm).imp Eq.symm Eq.symm)
    · exact agrees first old same
    · exact orderly.identity first old second old' same
  stored := by
    rintro found ⟨⟩
    exact List.mem_cons_self
  deleted := orderly.deleted
  applied entry member := by
    obtain ⟨key, obj, old, holds⟩ := orderly.applied entry member
    exact ⟨key, obj, List.mem_cons_of_mem _ old, holds⟩

theorem orderly_answers (orderly : Orderly publicHalf clients s)
    (entitled : Entitled publicHalf (clients i) s request)
    (answered : RegistryAnswers i s request answer t) :
    Orderly publicHalf clients t ∧ s.history ⊆ t.history ∧ Recorded t request answer := by
  cases answered with
  | read version => exact ⟨orderly, List.Subset.refl _, version⟩
  | unread | undeleted | uncreated => exact ⟨orderly, List.Subset.refl _, trivial⟩
  | @deleted obj uid key present same answer =>
    obtain ⟨read, member, uid, decided⟩ := entitled
    -- The object deleted is the one that was decided on, in its owners and spec.
    obtain ⟨owners, spec⟩ :=
      orderly.identity read member obj (orderly.stored obj present) (uid.trans same.symm)
    rw [decidePeer_congr owners spec] at decided
    refine ⟨⟨orderly.identity, nofun, ?_, orderly.applied⟩, List.Subset.refl _, trivial⟩
    exact List.forall_mem_cons.mpr ⟨decidePeer_replace decided, orderly.deleted⟩
  | created absent fresh created answer =>
    refine ⟨orderly.store fun old member same => absurd same (fresh old member),
      List.subset_cons_self _ _, trivial⟩
  | applied answer =>
    obtain ⟨rfl, read, member, decided, tunnel⟩ := entitled
    refine ⟨⟨orderly.identity, orderly.stored, orderly.deleted, ?_⟩, List.Subset.refl _, trivial⟩
    exact List.forall_mem_cons.mpr
      ⟨⟨rfl, read, member, decidePeer_keep decided, tunnel⟩, orderly.applied⟩

theorem orderly_others (orderly : Orderly publicHalf clients s) (moved : Others s t) :
    Orderly publicHalf clients t ∧ s.history ⊆ t.history := by
  cases moved with
  | create absent fresh =>
    exact ⟨orderly.store fun old member same => absurd same (fresh old member),
      List.subset_cons_self _ _⟩
  | @update obj new present same owners spec =>
    refine ⟨orderly.store fun old member uid => ?_, List.subset_cons_self _ _⟩
    obtain ⟨owners', spec'⟩ :=
      orderly.identity old member obj (orderly.stored obj present) (uid.trans same)
    exact ⟨owners'.trans owners.symm, spec'.trans spec.symm⟩
  | delete => exact ⟨⟨orderly.identity, nofun, orderly.deleted, orderly.applied⟩,
    List.Subset.refl _⟩

theorem discipline (publicHalf : Wgtypes.Key → Wgtypes.Key) (clients : ι → Client) :
    Threads.Discipline RegistryAnswers Others (Orderly publicHalf clients)
      (fun s t => s.history ⊆ t.history)
      (fun _ => Recorded) fun i => Entitled publicHalf (clients i) where
  refl _ := List.Subset.refl _
  trans := List.Subset.trans
  call := orderly_answers
  outside := orderly_others
  stays := by
    intro i s t request answer more known
    cases request with
    | getPeer key =>
      cases answer with
      | ok obj => exact more known
      | error e => trivial
    | _ => trivial

end

/-- However the passes of any number of clients, and what others do, are interleaved: no
client deletes a peer that no v1 Pod controls or that is its own registration, and every
tunnel applied was read from a version of the client's own registration. -/
theorem registration_safe {ι : Type} [DecidableEq ι] (publicHalf : Wgtypes.Key → Wgtypes.Key)
    (clients : ι → Client) (c : Threads ι (Registry ι) SidecarCall SidecarAnswer StepError Unit)
    (reached : Threads.Reached RegistryAnswers
      (fun i => step publicHalf (clients i).cfg (clients i).key) Others (emptyRegistry ι) c) :
    (∀ entry ∈ c.state.deleted, (∃ ctl, PodControls ctl entry.2) ∧
      ¬ Registers (clients entry.1).cfg (publicHalf (clients entry.1).key).string entry.2) ∧
    ∀ entry ∈ c.state.applied, entry.2.1 = (clients entry.1).key ∧ ∃ obj ∈ c.state.history,
      Registers (clients entry.1).cfg (publicHalf (clients entry.1).key).string obj ∧
        desiredTunnel obj.peer = .ok entry.2.2 := by
  have start : Orderly publicHalf clients (emptyRegistry ι) :=
    ⟨nofun, nofun, nofun, nofun⟩
  have orderly := reached.keeps (discipline publicHalf clients)
    (fun i s => step_entitled publicHalf (clients i) s) start
  exact ⟨orderly.deleted, orderly.applied⟩

/-! A pod app that is replaced by another one of its name. -/

def appClient (successor : Bool) : Client where
  cfg := ⟨"gw", "vpn", "app", "apps", if successor then "successor" else "predecessor"⟩
  key := ⟨List.replicate 32 (if successor then 2 else 1), by cases successor <;> decide⟩

instance (s : Registry ι) (uid : String) : Decidable (s.Fresh uid) :=
  inferInstanceAs (Decidable (∀ obj ∈ _, _))

/-- Reads show the version stored last, also when it is gone. -/
def clientHandler {ι : Type} (i : ι) : Handler SidecarCall SidecarAnswer (Registry ι) :=
    fun s request =>
  match request with
  | .getPeer _ =>
    match s.history with
    | obj :: _ => (.ok obj, s)
    | [] => (.error ⟨.notFound, ""⟩, s)
  | .deletePeer _ uid =>
    match s.stored with
    | some obj =>
      if obj.uid = uid then (.ok (), { s with stored := none, deleted := (i, obj) :: s.deleted })
      else (.error ⟨.conflict, ""⟩, s)
    | none => (.error ⟨.notFound, ""⟩, s)
  | .createPeer obj =>
    if s.stored = none ∧ s.Fresh (Nat.repr s.history.length) then
      (.ok (), s.store (born obj (Nat.repr s.history.length) 7))
    else (.error ⟨.alreadyExists, ""⟩, s)
  | .apply key t => (.ok (), { s with applied := (i, key, t) :: s.applied })

theorem clientHandler_answers {ι : Type} (i : ι) (s : Registry ι) (request : SidecarCall) :
    RegistryAnswers i s request (clientHandler i s request).1 (clientHandler i s request).2 := by
  cases request with
  | getPeer key =>
    simp only [clientHandler]
    split
    · rename_i obj rest listed
      exact .read (listed ▸ List.mem_cons_self)
    · exact .unread _
  | deletePeer key uid =>
    simp only [clientHandler]
    split
    · rename_i obj present
      split
      · rename_i same
        exact .deleted present same _
      · exact .undeleted _
    · exact .undeleted _
  | createPeer obj =>
    simp only [clientHandler]
    split
    · rename_i free
      exact .created free.1 free.2 7 _
    · exact .uncreated _
  | apply key t => exact .applied _

/-- The registry is one that the two clients can reach. -/
def AppReaches (s : Registry Bool) : Prop :=
  ∃ c, Threads.Reached RegistryAnswers (fun i => step id (appClient i).cfg (appClient i).key) Others
    (emptyRegistry Bool) c ∧ c.state = s

def clientPass (i : Bool) (s : Registry Bool) : Registry Bool :=
  ((step id (appClient i).cfg (appClient i).key).play (clientHandler i) s).2.2

theorem reaches_clientPass (i : Bool) (reaches : AppReaches s) : AppReaches (clientPass i s) := by
  obtain ⟨c, reached, rfl⟩ := reaches
  exact reached.run (play_trace (clientHandler i) (clientHandler_answers i) _ c.state)

/-- The operator writes the status of what is stored. -/
def publishStatus (s : Registry Bool) (status : WireguardPeerStatus) : Registry Bool :=
  match s.stored with
  | some obj => s.store { obj with peer := { obj.peer with status := status } }
  | none => s

theorem reaches_publishStatus (status : WireguardPeerStatus) (reaches : AppReaches s) :
    AppReaches (publishStatus s status) := by
  obtain ⟨c, reached, rfl⟩ := reaches
  unfold publishStatus
  split
  · rename_i obj present
    have moved : Others c.state
        (c.state.store { obj with peer := { obj.peer with status := status } }) :=
      .update present rfl rfl rfl
    exact ⟨_, reached.step (.outside moved), rfl⟩
  · exact ⟨c, reached, rfl⟩

def appStatus : WireguardPeerStatus where
  status := ready
  message := ""
  address := "10.8.0.2"
  endpoint := "10.96.0.10:51820"
  serverPublicKey := "AQAAAAAAAAAAAAAAAAAAAAAAAAAAAAAAAAAAAAAAAAA="
  localCIDRs := ["10.96.0.0/12"]
  conditions := []

/-- The successor finds the predecessor's peer, replaces it, and once the operator has
published its status configures the tunnel. -/
def successorRegistered : Registry Bool :=
  clientPass true (publishStatus
    (clientPass true (clientPass false (emptyRegistry Bool))) appStatus)

theorem registration_safe_for_successor :
    successorRegistered.deleted.map (·.1) = [true] ∧
      successorRegistered.applied.map (·.1) = [true] ∧
      (∀ entry ∈ successorRegistered.deleted, ∃ ctl, PodControls ctl entry.2) ∧
      ∀ entry ∈ successorRegistered.applied, ∃ obj ∈ successorRegistered.history,
        desiredTunnel obj.peer = .ok entry.2.2 := by
  have start : AppReaches (emptyRegistry Bool) := ⟨_, .initial, rfl⟩
  obtain ⟨c, reached, same⟩ := reaches_clientPass true (reaches_publishStatus appStatus
    (reaches_clientPass true (reaches_clientPass false start)))
  obtain ⟨deletes, applies⟩ := registration_safe id appClient c reached
  rw [same] at deletes applies
  refine ⟨by decide +kernel, by decide +kernel, fun entry member => (deletes entry member).1, ?_⟩
  intro entry member
  obtain ⟨-, obj, here, -, read⟩ := applies entry member
  exact ⟨obj, here, read⟩

end TunnelOperator.Sidecar
