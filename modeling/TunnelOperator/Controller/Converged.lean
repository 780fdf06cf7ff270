import TunnelOperator.Controller.Fixpoint
import TunnelOperator.Controller.KeyIncumbency

/-! Runs of clean passes reach a fixpoint within two passes, and the fixpoint serves whom
it should. -/
namespace TunnelOperator.Controller
open Program Resources

section Correct
variable {c : Cluster} {req : NamespacedName} {wg : Wireguard} {range : Ipam.PeerCIDR}
  {id : ServerIdentity} {S : List WireguardPeer} {secret : Secret}

/-- The peer reads Ready=False with reason PublicKeyConflict. -/
def refusedForKey (peer : WireguardPeer) : Bool :=
  match findStatusCondition peer.status.conditions conditionReady with
  | none => false
  | some cond => cond.status = .false && cond.reason = reasonPublicKeyConflict

/-- Each key an admissible peer of the server carries has one peer that is not refused
for it, and that peer is missing from state.json only if listed peers hold every
address of the range. -/
structure ServesHolders (req : NamespacedName) (wg : Wireguard) (c : Cluster) : Prop where
  one : ∀ u ∈ relatedPeers req c.peers, refusal wg u = none → ∃! h, h ∈ relatedPeers req c.peers ∧
    refusal wg h = none ∧ h.spec.publicKey = u.spec.publicKey ∧ refusedForKey h = false
  listed : ∀ h ∈ relatedPeers req c.peers, refusal wg h = none → refusedForKey h = false →
    ¬ Lists c req h.key h.spec.publicKey → ∀ range address,
      Ipam.Reads (effectivePeerCIDR4 wg) range →
      range.Holds address → ∃ state, c.state req = some state ∧ ∃ entry ∈ state.peers,
        entry.status.address = address

theorem refusedForKey_of_matches (recorded : peerStatusMatches peer nr = true) :
    refusedForKey peer = decide (nr.reason = reasonPublicKeyConflict) := by
  unfold peerStatusMatches at recorded
  unfold refusedForKey
  cases found : findStatusCondition peer.status.conditions conditionReady with
  | none =>
    rw [found] at recorded
    contradiction
  | some cond =>
    rw [found] at recorded
    simp only [Bool.and_eq_true, decide_eq_true_eq] at recorded
    obtain ⟨⟨⟨⟨-, isFalse⟩, reason⟩, -⟩, -⟩ := recorded
    simp [isFalse, reason]

/-- A key holder of the fixpoint is not refused for its key. -/
theorem Fixed.holder_admitted (fixed : Fixed req wg range id c S)
    (holding : h ∈ keyHolders wg (c.listed req) (relatedPeers req c.peers)) :
    refusedForKey h = false := by
  by_cases listing : h ∈ S
  · have settled := (fixed.ready h listing).2.1
    simp only [settledReady, Bool.and_eq_true, Option.isNone_iff_eq_none] at settled
    simp [refusedForKey, settled.2]
  · have conditions : ∀ cidr4, refusedForKey (clearUnusable cidr4 h) = refusedForKey h := by
      intro cidr4
      unfold clearUnusable
      split <;> rfl
    rw [← conditions, refusedForKey_of_matches (fixed.waiting h holding listing).1]
    exact decide_eq_false (show ¬ reasonAddressPoolExhausted = reasonPublicKeyConflict by decide)

theorem Fixed.servesHolders (fixed : Fixed req wg range id c S)
    (minted : c.secrets req = some secret)
    (state : StateOf wg secret S) (reads : Ipam.Reads (effectivePeerCIDR4 wg) range) :
    ServesHolders req wg c := by
  have distinct := related_distinct (List.Perm.refl c.peers) req
  -- The peer that is not refused for a key is the one that holds it.
  have only : ∀ u ∈ relatedPeers req c.peers, refusal wg u = none → refusedForKey u = false →
      ∀ h ∈ keyHolders wg (c.listed req) (relatedPeers req c.peers), h.spec.publicKey =
        u.spec.publicKey → u = h := by
    intro u related passes accepted h holding keyed
    by_contra apart
    have recorded := fixed.outranked u related passes h holding keyed (Ne.symm apart)
    rw [refusedForKey_of_matches recorded] at accepted
    exact absurd rfl (of_decide_eq_false accepted)
  constructor
  · intro u related passes
    obtain ⟨h, holding, keyed⟩ : ∃ h ∈ keyHolders wg (c.listed req) (relatedPeers req c.peers),
        h.spec.publicKey = u.spec.publicKey :=
          exists_keyHolder distinct (mem_admissible.mpr ⟨related, passes⟩)
    obtain ⟨related', passes'⟩ := mem_admissible.mp (keyHolders_sublist.subset holding)
    refine ⟨h, ⟨related', passes', keyed, fixed.holder_admitted holding⟩, ?_⟩
    rintro other ⟨relatedO, passesO, keyedO, accepted⟩
    exact only other relatedO passesO accepted h holding (keyed.trans keyedO.symm)
  · intro h related passes accepted missing range' address reads' usable
    obtain rfl : range' = range := Ipam.Reads.unique reads' reads
    have stated : c.state req = some (desiredState wg (secret.data.privateKey.getD "") S) := by
      have text : secret.data.stateJSON = _ := state
      simp [Cluster.state, minted, text, StateText.unmarshal]
    have entries : ∀ s ∈ S, rendered s ∈
        (desiredState wg (secret.data.privateKey.getD "") S).peers :=
      fun s listing => mem_desiredState.mpr ⟨s, listing, rfl⟩
    obtain ⟨holder, holding, keyed⟩ :
        ∃ holder ∈ keyHolders wg (c.listed req) (relatedPeers req c.peers),
        holder.spec.publicKey = h.spec.publicKey :=
          exists_keyHolder distinct (mem_admissible.mpr ⟨related, passes⟩)
    obtain rfl := only h related passes accepted holder holding keyed
    have absent : h ∉ S := fun listing => missing
      ⟨_, stated, rendered h, entries h listing, rfl, rfl⟩
    obtain ⟨s, listing, same⟩ := (fixed.waiting h holding absent).2 address usable
    exact ⟨_, stated, rendered s, entries s listing, same⟩

end Correct

section Run
variable {req : NamespacedName} {wg : Wireguard} {range : Ipam.PeerCIDR} {id : ServerIdentity}
  {publicHalf : Wgtypes.Key → Wgtypes.Key} {run : Nat → Cluster}
    {events : Nat → List (Event Call Answer)}
  {bound : Nat}

theorem going_run (passes : ∀ n < bound, CleanPass publicHalf req (run n) (events n) (run (n + 1)))
    (going : Going req wg id (run 0) secret) (within : n ≤ bound) :
    ∃ secret, Going req wg id (run n) secret := by
  induction n with
  | zero => exact ⟨secret, going⟩
  | succ n ih =>
    obtain ⟨secret, going⟩ := ih (Nat.le_of_succ_le within)
    obtain ⟨items, passed⟩ := going.pass (passes n within)
    exact ⟨_, going.next passed⟩

/-- One pass leaves a tidy cluster, the second a fixed one. -/
theorem fixed_run (checked : CheckedSpec wg) (reads : Ipam.Reads (effectivePeerCIDR4 wg) range)
    (passes : ∀ n < bound, CleanPass publicHalf req (run n) (events n) (run (n + 1)))
    (going : Going req wg id (run 0) secret) (within : n + 2 ≤ bound) :
    ∃ S secret, Fixed req wg range id (run (n + 2)) S ∧ Going req wg id (run (n + 2)) secret ∧
      StateOf wg secret S := by
  obtain ⟨secret, going⟩ := going_run passes going (n := n) (by omega)
  obtain ⟨items, passed⟩ := going.pass (passes n (by omega))
  have tidy := tidy_passed checked reads passed
  have going' := going.next passed
  obtain ⟨items', passed'⟩ := going'.pass (passes (n + 1) (by omega))
  have fixed := fixed_passed tidy checked reads going'.minted passed'
  rw [going'.identity] at fixed
  exact ⟨_, _, fixed, going'.next passed', stateOf_passed _ _ _ _⟩

/-- A pass that finds no status yet writes one and does nothing else. -/
theorem unstarted_pass {c c' : Cluster} (renders : Rendering req wg c)
    (blank : wg.status.status = "") (pass : CleanPass publicHalf req c calls c') :
    c'.secrets = c.secrets ∧ ∃ status, Renderable req { wg with status := status } c' := by
  obtain ⟨outcome, whole, ran⟩ := pass
  have specs := trace_sameSpecs ran
  have named : wg.key = req := c.named renders.stored
  subst named
  simp only [reconcile, ask_bind] at ran
  obtain ⟨tail, reporting, -⟩ := getWireguard_clean ran whole renders.stored
  dsimp only at reporting
  rw [if_pos blank] at reporting
  obtain ⟨-, -, secrets, ⟨status, started, stored⟩, -⟩ :=
    report_clean renders.stored reporting whole
  have same : assigned c' wg = assigned c wg := by
    unfold assigned
    rw [specs.clusterIPs]
  have inside := renders.inside
  rw [← same] at inside
  refine ⟨secrets, status, ⟨stored, renders.spec, ?_, inside⟩, started⟩
  unfold EnvClear
  rw [secrets]
  exact renders.env

/-- From a server that is going, the passes from the third on. -/
theorem going_converges (checked : CheckedSpec wg) (going : Going req wg id (run 0) secret)
    (passes : ∀ n < bound, CleanPass publicHalf req (run n) (events n) (run (n + 1))) :
    (∀ n, 2 ≤ n → n < bound →
      peerWrites (events n) = [] ∧ (run (n + 1)).secrets req = (run n).secrets req) ∧
    ∀ n, 2 ≤ n → n ≤ bound → ServesHolders req wg (run n) := by
  obtain ⟨range, reads⟩ := checked.range
  constructor
  · intro n third within
    obtain ⟨m, rfl⟩ := Nat.exists_eq_add_of_le' third
    obtain ⟨S, secret, fixed, going, state⟩ :=
      fixed_run checked reads passes going (Nat.le_of_lt within)
    obtain ⟨items, passed⟩ := going.pass (passes (m + 2) within)
    obtain ⟨silent, -, secrets⟩ := fixed_stays fixed going state reads passed
    exact ⟨silent, by rw [secrets]⟩
  · intro n third within
    obtain ⟨m, rfl⟩ := Nat.exists_eq_add_of_le' third
    obtain ⟨S, secret, fixed, going, state⟩ := fixed_run checked reads passes going within
    exact fixed.servesHolders going.minted state reads

/-- The passes before the fixpoint: two, after the one that writes the first status. -/
def passesToSettle (wg : Wireguard) : Nat := if wg.status.status = "" then 3 else 2

/-- Along every run of clean passes for a Wireguard that renders and whose Secret exists,
no peer status is written any more and the Secret stays as it is after `passesToSettle`,
and what is reached by then serves whom it should. -/
theorem clean_passes_converge (req : NamespacedName) (wg : Wireguard) (secret : Secret)
    (bound : Nat) (renders : Rendering req wg (run 0)) (minted : (run 0).secrets req = some secret)
    (passes : ∀ n < bound, CleanPass publicHalf req (run n) (events n) (run (n + 1))) :
    (∀ n, passesToSettle wg ≤ n → n < bound →
      peerWrites (events n) = [] ∧ (run (n + 1)).secrets req = (run n).secrets req) ∧
    ∀ n, passesToSettle wg ≤ n → n ≤ bound → ServesHolders req wg (run n) := by
  have checked := checkedSpec renders.spec
  unfold passesToSettle
  split
  · rename_i blank
    cases bound with
    | zero => exact ⟨fun n _ within => absurd within (Nat.not_lt_zero n),
      fun n late within => by omega⟩
    | succ bound =>
      -- The run from its second pass on is one of a started server.
      obtain ⟨secrets, status, renderable⟩ :=
        unstarted_pass renders blank (passes 0 (Nat.succ_pos _))
      have going : Going req wg (identityOf (assigned (run 1) wg) secret) (run 1) secret :=
        ⟨⟨_, renderable, rfl⟩, by rw [secrets, minted], rfl⟩
      obtain ⟨silent, serves⟩ : (∀ n, 2 ≤ n → n < bound → peerWrites (events (n + 1)) = [] ∧
            (run (n + 1 + 1)).secrets req = (run (n + 1)).secrets req) ∧
          ∀ n, 2 ≤ n → n ≤ bound → ServesHolders req wg (run (n + 1)) :=
        going_converges checked going fun n within => passes (n + 1) (Nat.succ_lt_succ within)
      constructor
      · rintro (_ | n) late within
        · omega
        · exact silent n (by omega) (by omega)
      · rintro (_ | n) late within
        · omega
        · exact serves n (by omega) (by omega)
  · rename_i started
    have going : Going req wg (identityOf (assigned (run 0) wg) secret) (run 0) secret :=
      ⟨⟨wg, ⟨renders, started⟩, rfl⟩, minted, rfl⟩
    exact going_converges checked going passes

/-- Convergence as counted from any status: no peer status is written from the third pass
on. -/
def PassesConverge : Prop :=
  ∀ (publicHalf : Wgtypes.Key → Wgtypes.Key) (run : Nat → Cluster)
    (events : Nat → List (Event Call Answer)) (req : NamespacedName) (wg : Wireguard)
    (secret : Secret) (bound : Nat),
    Rendering req wg (run 0) → (run 0).secrets req = some secret →
    (∀ n < bound, CleanPass publicHalf req (run n) (events n) (run (n + 1))) →
    (∀ n, 2 ≤ n → n < bound →
      peerWrites (events n) = [] ∧ (run (n + 1)).secrets req = (run n).secrets req) ∧
    ∀ n, 2 ≤ n → n ≤ bound → ServesHolders req wg (run n)

end Run

/-! Four peers that want two addresses: two dispute an address, two a key, and the
Secret's state cannot be read. -/

section Crowd

def crowdedServer : Wireguard :=
  { sampleServer with spec := { sampleServer.spec with peerCIDR := "10.8.0.0/30" } }

def thirdKey : String := "AgAAAAAAAAAAAAAAAAAAAAAAAAAAAAAAAAAAAAAAAAA="

def addressed (address : String) (peer : WireguardPeer) : WireguardPeer :=
  { peer with status := { peer.status with address := address } }

def crowdedCluster : Cluster where
  wireguards := fun key => if key = gateway then some crowdedServer else none
  secrets := fun key => if key = gateway then
    some (secretForWireguard crowdedServer
      (.other "truncated" none) drawnKey.string drawnPublicKey.string) else none
  clusterIPs := fun _ => "10.96.0.10"
  peers := [addressed "10.8.0.2" (samplePeer "a" 1 firstKey),
    addressed "10.8.0.2" (samplePeer "b" 2 secondKey),
    samplePeer "c" 3 firstKey, samplePeer "d" 4 thirdKey]
  named := fun stored => Cluster.named_ite stored rfl nofun
  distinct := by decide

def crowdedRun : Nat → Cluster
  | 0 => crowdedCluster
  | n + 1 => afterPass nothingLost gateway (crowdedRun n)

/-- The second pass still writes, the third does not. -/
theorem crowded_passes_converge :
    peerWrites (passEvents nothingLost gateway (crowdedRun 1)) ≠ [] ∧
    peerWrites (passEvents nothingLost gateway (crowdedRun 2)) = [] ∧
    (crowdedRun 3).secrets gateway = (crowdedRun 2).secrets gateway ∧
    ServesHolders gateway crowdedServer (crowdedRun 3) := by
  have renders : Rendering gateway crowdedServer (crowdedRun 0) := by
    refine ⟨rfl, by decide +kernel, ?_, by decide +kernel⟩
    rintro src ⟨⟩
  have passes : ∀ n < 3, CleanPass (fun _ => drawnPublicKey) gateway (crowdedRun n)
      (passEvents nothingLost gateway (crowdedRun n)) (crowdedRun (n + 1)) :=
    fun n _ => trace_afterPass nothingLost nothingLost_may gateway _
  have converges := clean_passes_converge gateway crowdedServer _ 3 renders rfl passes
  obtain ⟨silent, kept⟩ := converges.1 2 (le_refl 2) (by decide)
  exact ⟨by decide +kernel, silent, kept, converges.2 3 (by decide) (le_refl 3)⟩

/-! The same crowd before the server's first pass: its Secret is there, its status is not. -/

def unstartedServer : Wireguard := { crowdedServer with status := .empty }

def unstartedCluster : Cluster :=
  { crowdedCluster with
    wireguards := fun key => if key = gateway then some unstartedServer else none
    named := fun stored => Cluster.named_ite stored rfl nofun }

def unstartedRun : Nat → Cluster
  | 0 => unstartedCluster
  | n + 1 => afterPass nothingLost gateway (unstartedRun n)

/-- The first pass writes only the server's status, so the third is what the second is
for a started server. -/
theorem passesConverge_fails : ¬ PassesConverge := by
  intro converge
  have renders : Rendering gateway unstartedServer (unstartedRun 0) := by
    refine ⟨rfl, by decide +kernel, ?_, by decide +kernel⟩
    rintro src ⟨⟩
  have passes : ∀ n < 3, CleanPass (fun _ => drawnPublicKey) gateway (unstartedRun n)
      (passEvents nothingLost gateway (unstartedRun n)) (unstartedRun (n + 1)) :=
    fun n _ => trace_afterPass nothingLost nothingLost_may gateway _
  have silent := ((converge _ unstartedRun _ gateway unstartedServer _ 3 renders rfl passes).1 2
    (le_refl 2) (by decide)).1
  have writes : peerWrites (passEvents nothingLost gateway (unstartedRun 2)) ≠ [] := by
    decide +kernel
  exact writes silent

end Crowd
end TunnelOperator.Controller
