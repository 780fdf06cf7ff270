import TunnelOperator.Controller.CleanCalls
import TunnelOperator.Controller.Custody
import TunnelOperator.Controller.Listable

/-! The server's key over any run of passes: it is minted once, and every identity
published carries it. -/
namespace TunnelOperator.Controller
open Program Resources

section Identity
variable {wg : Wireguard} {current : ListedKeys} {peers : List WireguardPeer} {cidr4 : String}

/-- What a peer's status says about its server. -/
def publishedIdentity (peer : WireguardPeer) : String × String × List String :=
  (peer.status.endpoint, peer.status.serverPublicKey, peer.status.localCIDRs)

theorem clearUnusable_identity (cidr4 : String) (peer : WireguardPeer) :
    publishedIdentity (clearUnusable cidr4 peer) = publishedIdentity peer := by
  unfold clearUnusable
  split <;> rfl

theorem notReadyWrite_identity (written : notReadyWrite peer nr = some write) :
    publishedIdentity write = ("", "", []) ∧ write.status.address = "" := by
  rw [notReadyWrite_some written]
  exact ⟨rfl, rfl⟩

/-- Reconciling the peers never gives one a server's identity: it keeps the one listed or
clears it with the address. -/
theorem write_identity (member : write ∈ (plan wg current peers).writes cidr4) :
    (publishedIdentity write = ("", "", []) ∧ write.status.address = "") ∨
      ∃ peer ∈ peers, peer.key = write.key ∧ publishedIdentity write = publishedIdentity peer := by
  rcases mem_writes.mp member with ⟨peer, nr, -, written⟩ | ⟨allotment, allotted, written⟩
  · exact .inl (notReadyWrite_identity written)
  · rcases allotment_write written with ⟨-, rfl⟩ | serves
    · exact .inl ⟨rfl, rfl⟩
    · right
      obtain ⟨candidate, inside, used, allots, -⟩ := mem_allotments allotted
      obtain ⟨holder, holding, rfl⟩ := mem_cleared.mp (dedupe_keep_sublist.subset inside)
      have named : (clearUnusable (effectivePeerCIDR4 wg) holder).key = holder.key :=
        key_of_object (clearUnusable_object _ _)
      refine ⟨holder, (mem_admissible.mp (keyHolders_sublist.subset holding)).1, ?_⟩
      rw [← clearUnusable_identity (effectivePeerCIDR4 wg) holder, ← named]
      cases allots with
      | exhausted => contradiction
      | fresh | renewed | unchanged =>
        rw [← Option.some.inj serves]
        exact ⟨rfl, rfl⟩

end Identity

section Published
variable {publicHalf : Wgtypes.Key → Wgtypes.Key} {gw : NamespacedName} {r r' : SecretRegister}
    {publicKey : String}

/-- A status write of the passes of `gw` that publishes `publicKey`, or keeps what the
object it was made from says about the server, or clears it. -/
def Publishes (gw : NamespacedName) (publicKey : String) (events : List (Event Call Answer)) :
    Call → Prop
  | .updatePeerStatus peer =>
      peer.status.serverPublicKey = publicKey ∨ publishedIdentity peer = ("", "", []) ∨
      ∃ items, ⟨.listPeers, .ok items⟩ ∈ events ∧ ∃ listed ∈ relatedPeers gw items,
        listed.key = peer.key ∧ publishedIdentity peer = publishedIdentity listed
  | .updateWireguardStatus wg => wg.status.publicKey = publicKey ∨
      ∃ latest, ⟨.getWireguard gw, .ok latest⟩ ∈ events ∧
        wg.status.endpoint = latest.status.endpoint ∧ wg.status.publicKey = latest.status.publicKey
  | _ => True

theorem unguarded_publishes (gw : NamespacedName) (publicKey : String)
    (events : List (Event Call Answer)) : Unguarded (Publishes gw publicKey events) := by
  constructor <;> intros <;> trivial

theorem Publishes.mono (publishes : Publishes gw publicKey events request)
    (more : events ⊆ events') : Publishes gw publicKey events' request := by
  unfold Publishes at publishes ⊢
  split at publishes
  · rcases publishes with same | empty | ⟨items, member, kept⟩
    · exact .inl same
    · exact .inr (.inl empty)
    · exact .inr (.inr ⟨items, more member, kept⟩)
  · rcases publishes with same | ⟨latest, member, kept⟩
    · exact .inl same
    · exact .inr ⟨latest, more member, kept⟩
  · trivial

/-- A pass publishes the public key of the Secret it has read. -/
theorem pass_publishes (run : Trace (SecretEnv gw) r (reconcile publicHalf gw) events outcome r')
    (reads : ∀ secret, ⟨.getSecret gw, .ok secret⟩ ∈ events →
      secret.data.publicKey = some publicKey) :
    ∀ event ∈ events, Publishes gw publicKey events event.1 := by
  let expected : (request : Call) → Answer request → Prop := fun request answer =>
    ⟨request, answer⟩ ∈ events ∧ Named request answer
  have unguarded := unguarded_publishes gw publicKey events
  have keeps : ∀ wg cond, wg.key = gw →
      Records expected (Publishes gw publicKey events) wg cond none := by
    rintro wg cond own latest ⟨member, -⟩
    exact .inr ⟨latest, own ▸ member, rfl, rfl⟩
  have safe : (reconcile publicHalf gw).Safe expected
      (Publishes gw publicKey events) fun _ => True := by
    rw [reconcile_eq]
    refine (prepare_records unguarded gw (fun wg known _ => keeps wg _ known.2)
      (fun wg _ _ known _ => keeps wg _ known.2) ?_).bind fun prepared rendered => ?_
    · intro _ items _ peer _ _ write written
      exact .inr (.inl (notReadyWrite_identity written).1)
    · cases prepared with
      | ended result => trivial
      | rendered wg svc =>
        have own : wg.key = gw := (rendered wg svc rfl).1.2
        have public' : ∀ secret, expected (.getSecret wg.key) (.ok secret) →
            (identityOf svc secret).publicKey = publicKey := by
          rintro secret ⟨member, -⟩
          rw [own] at member
          rw [identityOf, reads secret member, Option.getD_some]
        have planned : (reconcilePeers gw wg).Safe expected
            (Publishes gw publicKey events) fun _ => True := by
          refine reconcilePeers_reads unguarded.getSecret unguarded.listPeers gw wg
            fun current items _ listed => ?_
          refine (execute_safe _).weaken ?_ fun _ _ => trivial
          rintro request ⟨write, member, rfl⟩
          rcases write_identity member with ⟨empty, -⟩ | ⟨peer, inside, same, kept⟩
          · exact .inr (.inl empty)
          · exact .inr (.inr ⟨items, listed.1, peer, inside, same, kept⟩)
        refine planned.bind fun admitted _ => ?_
        refine serve_records unguarded publicHalf wg svc admitted (fun _ _ => keeps wg _ own) ?_ ?_
          (fun _ _ => trivial) fun _ => trivial
        · exact fun secret known status reason message latest _ => .inl (public' secret known)
        · exact fun secret known peer _ => .inl (public' secret known)
  refine (run.safe_of_events safe fun event member => ⟨member, ?_⟩).1
  exact run.answers SecretEnv.named event member

end Published

/-- Passes of any servers, however they end, from the time before the Secret of `gw` was
first created, as long as nobody deletes it; with the calls of the passes of `gw`. -/
inductive SecretRun (publicHalf : Wgtypes.Key → Wgtypes.Key) (gw : NamespacedName) :
    List (Event Call Answer) → SecretRegister → Prop where
  | start : SecretRun publicHalf gw [] (.single none)
  | pass (before : SecretRun publicHalf gw events r)
      (run : Trace (SecretEnv gw) r (reconcile publicHalf gw) more outcome r') :
      SecretRun publicHalf gw (events ++ more) r'
  | otherPass (before : SecretRun publicHalf gw events r) (different : req ≠ gw)
      (run : Trace (SecretEnv gw) r (reconcile publicHalf req) more outcome r') :
      SecretRun publicHalf gw events r'

/-- All versions of the Secret hold one key, and the passes of the server give no object
another one. -/
theorem run_publishes (run : SecretRun publicHalf gw events r) :
    (Unminted r ∧ ∀ publicKey, ∀ event ∈ events, Publishes gw publicKey events event.1) ∨
    ∃ key, Kept publicHalf key r ∧
      ∀ event ∈ events, Publishes gw (publicHalf key).string events event.1 := by
  -- The pass that mints the key ends with it, so what was published before carries no key.
  induction run with
  | start => exact .inl ⟨by simp [Unminted, Register.single], by simp⟩
  | otherPass before different run ih =>
    obtain ⟨keeps, -⟩ := pass_keeps run
    have same := spared_versions run
      (run.safe_of_expected (reconcile_spares publicHalf different) SecretEnv.named).1
    rcases ih with ⟨unminted, published⟩ | ⟨key, kept, published⟩
    · exact .inl ⟨by rwa [Unminted, same], published⟩
    · exact .inr ⟨key, keeps key kept, published⟩
  | @pass events r more outcome r' before run ih =>
    obtain ⟨keeps, mints⟩ := pass_keeps run
    have stored := (read_stored run).2
    have joined : ∀ {publicKey}, (∀ event ∈ events, Publishes gw publicKey events event.1) →
        (∀ event ∈ more, Publishes gw publicKey more event.1) →
        ∀ event ∈ events ++ more, Publishes gw publicKey (events ++ more) event.1 := by
      intro publicKey early late event member
      rcases List.mem_append.mp member with here | here
      · exact (early event here).mono (List.subset_append_left _ _)
      · exact (late event here).mono (List.subset_append_right _ _)
    have publishing : ∀ key, Kept publicHalf key r' →
        ∀ event ∈ more, Publishes gw (publicHalf key).string more event.1 := fun key kept =>
      pass_publishes run fun secret read => (kept.versions secret (stored secret read)).publicKey
    rcases ih with ⟨unminted, published⟩ | ⟨key, kept, published⟩
    · rcases mints unminted with still | ⟨key, kept⟩
      · refine .inl ⟨still, fun publicKey => joined (published publicKey)
          (pass_publishes run fun secret read => ?_)⟩
        exact absurd (still _ (stored secret read)) (by simp)
      · exact .inr ⟨key, kept, joined (published _) (publishing key kept)⟩
    · exact .inr ⟨key, keeps key kept, joined published (publishing key (keeps key kept))⟩

/-- A status that names no server, or the one with `publicKey`. -/
def Announces (publicKey : String) : Call → Prop
  | .updatePeerStatus peer => (peer.status.endpoint = "" ∧ peer.status.serverPublicKey = "") ∨
      peer.status.serverPublicKey = publicKey
  | .updateWireguardStatus wg => (wg.status.endpoint = "" ∧ wg.status.publicKey = "") ∨
      wg.status.publicKey = publicKey
  | _ => True

/-- No status that the passes of `gw` read names another server than the one with
`publicKey`. -/
structure ReadsOwn (gw : NamespacedName) (publicKey : String)
    (events : List (Event Call Answer)) : Prop where
  peers : ∀ items, ⟨.listPeers, .ok items⟩ ∈ events → ∀ peer ∈ relatedPeers gw items,
    Announces publicKey (.updatePeerStatus peer)
  server : ∀ wg, ⟨.getWireguard gw, .ok wg⟩ ∈ events →
    Announces publicKey (.updateWireguardStatus wg)

theorem Publishes.announces (publishes : Publishes gw publicKey events request)
    (own : ReadsOwn gw publicKey events) : Announces publicKey request := by
  cases request with
  | updatePeerStatus peer =>
    rcases publishes with same | empty | ⟨items, listing, listed, related, -, kept⟩
    · exact .inr same
    · simp only [publishedIdentity, Prod.mk.injEq] at empty
      exact .inl ⟨empty.1, empty.2.1⟩
    · have read := own.peers items listing listed related
      simp only [publishedIdentity, Prod.mk.injEq] at kept
      simp only [Announces, kept.1, kept.2.1]
      exact read
  | updateWireguardStatus wg =>
    rcases publishes with same | ⟨latest, reading, endpoint, publicKey⟩
    · exact .inr same
    · have read := own.server latest reading
      simp only [Announces, endpoint, publicKey]
      exact read
  | _ => trivial

/-- The key of a server is minted once: all versions of its Secret hold one key. As long
as no status the passes read names another server, they publish that key's public half
and no other. -/
theorem key_minted_once (publicHalf : Wgtypes.Key → Wgtypes.Key) (gw : NamespacedName)
    (events : List (Event Call Answer)) (r : SecretRegister)
    (run : SecretRun publicHalf gw events r) :
    (Unminted r ∧ ∀ publicKey, ReadsOwn gw publicKey events →
      ∀ event ∈ events, Announces publicKey event.1) ∨
    ∃ key, (∀ secret, some secret ∈ r.versions → HoldsKey publicHalf key secret) ∧
      (ReadsOwn gw (publicHalf key).string events →
        ∀ event ∈ events, Announces (publicHalf key).string event.1) := by
  rcases run_publishes run with ⟨unminted, published⟩ | ⟨key, kept, published⟩
  · exact .inl ⟨unminted, fun publicKey own event member =>
      (published publicKey event member).announces own⟩
  · exact .inr ⟨key, kept.versions, fun own event member =>
      (published event member).announces own⟩

/-- Every status a pass of the server writes while the Secret exists names no server or
the one with the Secret's public key. -/
def IdentitiesMinted : Prop :=
  ∀ (publicHalf : Wgtypes.Key → Wgtypes.Key) (gw : NamespacedName)
    (events more : List (Event Call Answer)) (r r' : SecretRegister) (secret : Secret)
    (outcome : Outcome ApiError Result),
    SecretRun publicHalf gw events r → r.current = some secret →
    Trace (SecretEnv gw) r (reconcile publicHalf gw) more outcome r' →
    ∀ event ∈ more, Announces (secret.data.publicKey.getD "") event.1

/-- The sample cluster around a stored Secret, read without lag. -/
def secretHandler : Handler Call Answer SecretRegister := fun r request =>
  match request with
  | .getSecret key =>
    if key = sampleServer.key then
      (orNotFound r.current, ⟨r.versions, r.versions.length - 1, Nat.sub_one_lt_of_lt r.bound⟩)
    else (.error notFound, r)
  | .createSecret secret =>
    if secret.key = sampleServer.key ∧ r.current = none then (.ok (), r.write (some secret))
    else (.error alreadyExists, r)
  | .updateSecret secret =>
    if secret.key = sampleServer.key ∧ r.current ≠ none then (.ok (), r.write (some secret))
    else (.error notFound, r)
  | .getWireguard key => (if key = sampleServer.key then .ok sampleServer else .error notFound, r)
  | other => (sampleAnswer other, r)

theorem secretHandler_answers (r : SecretRegister) (request : Call) :
    SecretEnv sampleServer.key r request (secretHandler r request).1
      (secretHandler r request).2 := by
  cases request with
  | getSecret key =>
    simp only [secretHandler]
    split
    · rename_i ours
      subst ours
      have newest : r.current =
          r.versions.get ⟨r.versions.length - 1, Nat.sub_one_lt_of_lt r.bound⟩ := by
        rw [Register.current, List.getLast_eq_getElem]
        rfl
      rw [newest]
      exact .cached (.version (Nat.le_sub_one_of_lt r.bound) _)
    · rename_i different
      exact .other different
  | createSecret secret =>
    simp only [secretHandler]
    split
    · rename_i free
      exact .created free.1 free.2 _
    · exact .uncreated _
  | updateSecret secret =>
    simp only [secretHandler]
    split
    · rename_i present
      exact .updated present.1 present.2 _
    · exact .notUpdated _
  | getWireguard key =>
    simp only [secretHandler]
    split
    · rename_i ours
      exact .other ours.symm
    · exact .other trivial
  | _ => exact .other trivial

def secretPass (r : SecretRegister) :
    List (Event Call Answer) × Outcome ApiError Result × SecretRegister :=
  (reconcile (fun _ => drawnPublicKey) sampleServer.key).play secretHandler r

/-- The first pass mints the key, the second one publishes it. -/
def mintingPass : List (Event Call Answer) × Outcome ApiError Result × SecretRegister :=
  secretPass (.single none)

def publishingPass : List (Event Call Answer) × Outcome ApiError Result × SecretRegister :=
  secretPass mintingPass.2.2

/-- What the sample cluster tells of the peers and of the server. -/
def SampleReads : (request : Call) → Answer request → Prop
  | .listPeers, .ok items => ∀ peer ∈ items, peer.status = .empty
  | .getWireguard _, .ok wg => wg = sampleServer
  | _, _ => True

theorem secretHandler_reads (r : SecretRegister) (request : Call) :
    SampleReads request (secretHandler r request).1 := by
  cases request with
  | listPeers =>
    intro peer member
    simp only [List.mem_cons, List.not_mem_nil, or_false] at member
    rcases member with rfl | rfl <;> rfl
  | getWireguard key =>
    simp only [secretHandler]
    split <;> trivial
  | _ => trivial

theorem secretPass_reads (r : SecretRegister) :
    ∀ event ∈ (secretPass r).1, SampleReads event.1 event.2 := by
  have run : Trace (fun _ request answer _ => SampleReads request answer) r
      (reconcile (fun _ => drawnPublicKey) sampleServer.key) (secretPass r).1 _ _ :=
    play_trace secretHandler secretHandler_reads _ r
  exact run.answers id

theorem key_minted_once_in_two_passes :
    publishingPass.2.2.versions.length = 2 ∧
    (publishingPass.1.any fun event => match event.1 with
      | .updateWireguardStatus wg => wg.status.publicKey = drawnPublicKey.string
      | _ => false) = true ∧
    ∃ key, (∀ secret, some secret ∈ publishingPass.2.2.versions →
        HoldsKey (fun _ => drawnPublicKey) key secret) ∧
      ∀ event ∈ [] ++ mintingPass.1 ++ publishingPass.1,
        Announces drawnPublicKey.string event.1 := by
  refine ⟨by decide +kernel, by decide +kernel, ?_⟩
  have replay := fun r => play_trace secretHandler secretHandler_answers
    (reconcile (fun _ => drawnPublicKey) sampleServer.key) r
  have run : SecretRun (fun _ => drawnPublicKey) sampleServer.key
      ([] ++ mintingPass.1 ++ publishingPass.1) publishingPass.2.2 :=
    .pass (.pass .start (replay _)) (replay _)
  have reads : ∀ event ∈ [] ++ mintingPass.1 ++ publishingPass.1, SampleReads event.1 event.2 := by
    intro event member
    rcases List.mem_append.mp member with first | second
    · exact secretPass_reads _ event first
    · exact secretPass_reads _ event second
  have own : ReadsOwn sampleServer.key drawnPublicKey.string
      ([] ++ mintingPass.1 ++ publishingPass.1) := by
    constructor
    · intro items listing peer related
      have blank : peer.status = .empty := reads _ listing peer (List.mem_filter.mp related).1
      simp [Announces, blank, WireguardPeerStatus.empty]
    · intro wg reading
      obtain rfl : wg = sampleServer := reads _ reading
      exact .inl ⟨rfl, rfl⟩
  rcases key_minted_once _ _ _ _ run with ⟨unminted, -⟩ | ⟨key, holds, announces⟩
  · have minted : publishingPass.2.2.versions.any (·.isSome) = true := by decide +kernel
    obtain ⟨entry, member, some⟩ := List.any_eq_true.mp minted
    rw [unminted entry member] at some
    contradiction
  · exact ⟨key, holds, announces own⟩

/-! A peer that another server has served until it was pointed at this one. -/

def movedPeer : WireguardPeer :=
  { samplePeer "roamer" 9 firstKey with
    status := ⟨ready, "Peer configured", "10.9.0.2", "10.96.0.11:51820", secondKey,
      ["10.96.0.0/12"], []⟩ }

def movedHandler : Handler Call Answer SecretRegister := fun r request =>
  match request with
  | .listPeers => (.ok [movedPeer], r)
  | other => secretHandler r other

theorem movedHandler_answers (r : SecretRegister) (request : Call) :
    SecretEnv sampleServer.key r request (movedHandler r request).1 (movedHandler r request).2 := by
  cases request with
  | listPeers => exact .other trivial
  | _ => exact secretHandler_answers r _

def movedPass : List (Event Call Answer) × Outcome ApiError Result × SecretRegister :=
  (reconcile (fun _ => drawnPublicKey) sampleServer.key).play movedHandler mintingPass.2.2

/-- The pass allocates an address of its own range and writes it beside the endpoint and
the key of the other server. -/
theorem identitiesMinted_fails : ¬ IdentitiesMinted := by
  intro minted
  have replay := play_trace secretHandler secretHandler_answers
    (reconcile (fun _ => drawnPublicKey) sampleServer.key) (.single none)
  have run : SecretRun (fun _ => drawnPublicKey) sampleServer.key ([] ++ mintingPass.1)
      mintingPass.2.2 := .pass .start replay
  have stored : mintingPass.2.2.current.map (·.data.publicKey) =
      some (some drawnPublicKey.string) := by
    decide +kernel
  obtain ⟨secret, current, publicKey⟩ := Option.map_eq_some_iff.mp stored
  have announces := minted _ _ _ _ _ _ secret _ run current
    (play_trace movedHandler movedHandler_answers _ mintingPass.2.2)
  rw [publicKey, Option.getD_some] at announces
  have mixed : ∃ peer ∈ peerWrites movedPass.1, peer.status.address = "10.8.0.2" ∧
      peer.status.serverPublicKey = secondKey := by decide +kernel
  obtain ⟨peer, written, -, foreign⟩ := mixed
  obtain ⟨⟨request, answer⟩, member, same⟩ := List.mem_filterMap.mp written
  have announced := announces _ member
  cases request with
  | updatePeerStatus write =>
    obtain rfl := Option.some.inj same
    rcases announced with ⟨-, blank⟩ | own
    · exact absurd (foreign.symm.trans blank) (by decide)
    · exact absurd (foreign.symm.trans own) (by decide +kernel)
  | _ => contradiction

end TunnelOperator.Controller
