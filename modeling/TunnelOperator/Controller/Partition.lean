import Mathlib.Data.Prod.Lex
import TunnelOperator.Controller.Fates
import TunnelOperator.Controller.Turns

/-! The two dedupe functions as partitions of the list: the least holder of each value is
kept, the others lose it to that holder, and the order of the list plays no part. -/
namespace TunnelOperator.Controller
open Program Resources

section Rank

/-- By creationTimestamp, then name, then namespace. -/
def age (peer : WireguardPeer) : Int ×ₗ String ×ₗ String :=
  toLex (peer.creationTimestamp, toLex (peer.name, peer.nameSpace))

theorem older_iff_age (a b : WireguardPeer) : older a b = true ↔ age a < age b := by
  simp only [older_iff, age, Prod.Lex.toLex_lt_toLex]

/-- A peer listed under its key comes first, then by age. -/
def seniority (current : ListedKeys) (peer : WireguardPeer) : Bool ×ₗ Int ×ₗ String ×ₗ String :=
  toLex (decide (current peer.key ≠ peer.spec.publicKey), age peer)

theorem beats_iff_seniority (current : ListedKeys) (a b : WireguardPeer) :
    beats current a b = true ↔ seniority current a < seniority current b := by
  have unlisted : ∀ peer : WireguardPeer,
      decide (current peer.key ≠ peer.spec.publicKey) = !listed current peer := by simp [listed]
  simp only [seniority, unlisted, Prod.Lex.toLex_lt_toLex, beats]
  cases listed current a <;> cases listed current b <;> simp [older_iff_age]

end Rank

/-- A list of peers split by a value of theirs, the least of each value's peers holding it. -/
structure Split [LinearOrder ρ] (value : WireguardPeer → String) (rank : WireguardPeer → ρ)
    (peers keep : List WireguardPeer) (losers : List ConflictLoser) : Prop where
  ordered : keep.Sublist peers
  whole : (keep ++ losers.map (·.peer)).Perm peers
  unvalued : ∀ peer ∈ peers, value peer = "" → peer ∈ keep
  holder : ∀ peer ∈ peers, value peer ≠ "" → ∃ holder ∈ keep, value holder = value peer ∧
    (∀ kept ∈ keep, value kept = value peer → kept = holder) ∧
    (∀ other ∈ peers, value other = value peer → rank holder ≤ rank other) ∧
    ∀ loser ∈ losers, value loser.peer = value peer → loser.winner = holder.key.string

section Dedupe
variable {value : WireguardPeer → String} {wins : WireguardPeer → WireguardPeer → Bool}
  {peers first second : List WireguardPeer}

theorem dedupe_split [LinearOrder ρ] {rank : WireguardPeer → ρ} (ranks : Election.Ranks wins peers)
    (ranked : ∀ a b, wins a b = true ↔ rank a < rank b) :
    Split value rank peers (dedupe value wins peers).1 (dedupe value wins peers).2 where
  ordered := dedupe_keep_sublist
  whole := dedupe_partition value wins peers
  unvalued _ member empty := (mem_dedupe_keep ranks).mpr ⟨member, .inl empty⟩
  holder peer member held := by
    obtain ⟨holder, holds, same⟩ := exists_holder ranks member held
    have valued : value holder ≠ "" := same ▸ held
    refine ⟨holder, (mem_dedupe_keep ranks).mpr ⟨holds.1, .inr holds⟩, same, ?_, ?_, ?_⟩
    · intro kept inside also
      have holds' := ((mem_dedupe_keep ranks).mp inside).2.resolve_left (also ▸ held)
      exact (holds.unique ranks valued holds' (same.trans also.symm)).symm
    · intro other inside also
      rcases holds.2 other inside (also.trans same.symm) with rfl | before
      · exact le_rfl
      · exact ((ranked holder other).mp before).le
    · intro loser inside also
      obtain ⟨lost, winner, rfl, -, -, holding, -, holds'⟩ := (mem_dedupe_losers ranks).mp inside
      rw [holds.unique ranks valued holds' (same.trans (holding.trans also).symm)]

theorem Holder.perm (same : first.Perm second) :
    Holder value wins first peer ↔ Holder value wins second peer := by
  simp only [Holder, same.mem_iff]

theorem dedupe_nodup (ranks : Election.Ranks wins peers) :
    (dedupe value wins peers).1.Nodup ∧ (dedupe value wins peers).2.Nodup := by
  have whole := (dedupe_partition value wins peers).nodup_iff.mpr ranks.nodup
  exact ⟨(List.nodup_append.mp whole).1, (List.nodup_append.mp whole).2.1.of_map⟩

/-- Whatever the order of the list, the same peers are kept and the same lose to the same. -/
theorem dedupe_perm (ranks : Election.Ranks wins first) (same : first.Perm second) :
    (dedupe value wins first).1.Perm (dedupe value wins second).1 ∧
      (dedupe value wins first).2.Perm (dedupe value wins second).2 := by
  have ranks' := ranks.perm same
  constructor
  · refine (List.perm_ext_iff_of_nodup (dedupe_nodup ranks).1 (dedupe_nodup ranks').1).mpr
      fun peer => ?_
    rw [mem_dedupe_keep ranks, mem_dedupe_keep ranks', same.mem_iff, Holder.perm same]
  · refine (List.perm_ext_iff_of_nodup (dedupe_nodup ranks).2 (dedupe_nodup ranks').2).mpr
      fun loser => ?_
    simp only [mem_dedupe_losers ranks, mem_dedupe_losers ranks', same.mem_iff, Holder.perm same]

theorem candidates_perm (distinct : (first.map (·.key)).Nodup) (same : first.Perm second) :
    (candidates wg current first).Perm (candidates wg current second) := by
  have holding : (keyHolders wg current first).Perm (keyHolders wg current second) :=
    (dedupe_perm (ranks_beats current (admissible_distinct distinct)) (same.filter _)).1
  exact (dedupe_perm (ranks_older (cleared_distinct distinct)) (holding.map _)).1

end Dedupe

section Rendering
variable {env : Environment Call Answer S} {peers : List WireguardPeer}

/-- Peers that all hold an address are all returned, with that address. -/
theorem allot_of_held (held : ∀ peer ∈ peers, peer.status.address ≠ "") (usedIps4 : List String) :
    (allot cidr4 usedIps4 peers).filterMap Allotment.held =
        (allot cidr4 usedIps4 peers).filterMap Allotment.served ∧
      ((allot cidr4 usedIps4 peers).filterMap Allotment.served).map rendered =
        peers.map rendered := by
  induction peers with
  | nil => simp [allot]
  | cons peer rest ih =>
    obtain ⟨same, shown⟩ := ih fun other inside => held other (List.mem_cons_of_mem _ inside)
    rw [allot, if_neg (held peer List.mem_cons_self)]
    split
    · simp [Allotment.held, Allotment.served, same, shown]
    · simp only [List.filterMap_cons, Allotment.held, Allotment.served, same, List.map_cons, shown, true_and]
      rfl

theorem desiredState_congr (same : first.map rendered = second.map rendered) (wg : Wireguard)
    (privateKey : String) :
    desiredState wg privateKey first = desiredState wg privateKey second := by
  simp only [desiredState, same]

/-- When every peer holds an address, allocatePeers changes nothing that is rendered. -/
theorem allocatePeers_rendered (held : ∀ peer ∈ peers, peer.status.address ≠ "")
    (run : Trace env s (allocatePeers cidr4 peers) events (.done out) t) :
    out.map rendered = peers.map rendered := by
  rw [allocatePeers, allocateEach_eq] at run
  obtain ⟨upper, lower⟩ := (run_safe run (carryOut_safe _)).2 out rfl
  obtain ⟨same, shown⟩ := allot_of_held held (Ipam.getUsedIPs cidr4 peers)
  rw [same] at lower
  rw [← shown, upper.antisymm lower]

end Rendering

/-- Both functions keep the least holder of each value and name it to the others, whatever
the order of the list. When every peer that is kept holds a usable address, the order does
not show in the state either, however its status writes end. -/
theorem dedupe_order_independent (peers : List WireguardPeer) (current : ListedKeys)
    (distinct : (peers.map (·.key)).Nodup) :
    Split (·.status.address) age peers (dedupeAddresses peers).1 (dedupeAddresses peers).2 ∧
    Split (·.spec.publicKey) (seniority current) peers
      (dedupePublicKeys peers current).1 (dedupePublicKeys peers current).2 ∧
    ∀ permuted, permuted.Perm peers →
      ((dedupeAddresses permuted).1.Perm (dedupeAddresses peers).1 ∧
        (dedupeAddresses permuted).2.Perm (dedupeAddresses peers).2) ∧
      ((dedupePublicKeys permuted current).1.Perm (dedupePublicKeys peers current).1 ∧
        (dedupePublicKeys permuted current).2.Perm (dedupePublicKeys peers current).2) ∧
      ∀ wg, (∀ kept ∈ candidates wg current peers,
          addressUsable kept.status.address (effectivePeerCIDR4 wg) = true) →
        ∀ {S S' : Type} {env : Environment Call Answer S} {env' : Environment Call Answer S'}
          {s t s' t' events events' out out'},
          Trace env s (allocatePeers (effectivePeerCIDR4 wg) (candidates wg current permuted))
            events (.done out) t →
          Trace env' s' (allocatePeers (effectivePeerCIDR4 wg) (candidates wg current peers))
            events' (.done out') t' →
          ∀ privateKey, StateText.marshal (desiredState wg privateKey out) =
            StateText.marshal (desiredState wg privateKey out') := by
  refine ⟨dedupe_split (ranks_older distinct) older_iff_age,
    dedupe_split (ranks_beats current distinct) (beats_iff_seniority current), ?_⟩
  intro permuted same
  have distinct' : (permuted.map (·.key)).Nodup := (same.map _).nodup_iff.mpr distinct
  refine ⟨dedupe_perm (ranks_older distinct') same,
    dedupe_perm (ranks_beats current distinct') same, ?_⟩
  intro wg usable S S' env env' s t s' t' events events' out out' run run' privateKey
  have alike : (candidates wg current permuted).Perm (candidates wg current peers) :=
    candidates_perm distinct' same
  have held : ∀ kept ∈ candidates wg current peers, kept.status.address ≠ "" := by
    intro kept inside empty
    have := usable kept inside
    rw [empty, addressUsable_empty] at this
    contradiction
  have held' : ∀ kept ∈ candidates wg current permuted, kept.status.address ≠ "" :=
    fun kept inside => held kept (alike.mem_iff.mp inside)
  congr 1
  calc desiredState wg privateKey out
      = desiredState wg privateKey (candidates wg current permuted) :=
        desiredState_congr (allocatePeers_rendered held' run) wg privateKey
    _ = desiredState wg privateKey (candidates wg current peers) :=
        desiredState_perm ((cleared_distinct distinct').sublist (dedupe_keep_sublist.map _)) alike
          wg privateKey
    _ = desiredState wg privateKey out' :=
        (desiredState_congr (allocatePeers_rendered held run') wg privateKey).symm

/-! Three peers of one age, two of which have the same key. -/

def tiedPeer (name publicKey address : String) : WireguardPeer :=
  withAddress (samplePeer name 1 publicKey) address

def tiedPeers : List WireguardPeer :=
  [tiedPeer "tablet" firstKey "10.8.0.3", tiedPeer "laptop" firstKey "10.8.0.2",
    tiedPeer "phone" secondKey "10.8.0.4"]

def tiedPass (peers : List WireguardPeer) : Outcome ApiError (List WireguardPeer) :=
  ((allocatePeers "10.8.0.0/24" (candidates sampleServer (fun _ => "") peers)).play
    sampleHandler ()).2.1

theorem laptop_wins_in_either_order :
    (dedupePublicKeys tiedPeers fun _ => "").2 =
    [⟨tiedPeer "tablet" firstKey "10.8.0.3", "apps/laptop"⟩] ∧
    (dedupePublicKeys tiedPeers.reverse fun _ => "").2.Perm
    (dedupePublicKeys tiedPeers fun _ => "").2 ∧
    ∃ out out', tiedPass tiedPeers.reverse = .done out ∧ tiedPass tiedPeers = .done out' ∧
      StateText.marshal (desiredState sampleServer "key" out) = StateText.marshal
        (desiredState sampleServer "key" out') := by
  have backward : ((tiedPass tiedPeers.reverse).value.map (·.map (·.name))) =
      some ["phone", "laptop"] := by
    decide +kernel
  have forward : ((tiedPass tiedPeers).value.map (·.map (·.name))) = some ["laptop", "phone"] := by
    decide +kernel
  obtain ⟨out, returned, -⟩ := Option.map_eq_some_iff.mp backward
  obtain ⟨out', returned', -⟩ := Option.map_eq_some_iff.mp forward
  have replay : ∀ program : Reconciler (List WireguardPeer), Trace sampleEnv () program _ _ _ :=
    fun program => play_trace sampleHandler (fun _ _ => rfl) program ()
  have run := replay (allocatePeers "10.8.0.0/24"
    (candidates sampleServer (fun _ => "") tiedPeers.reverse))
  have run' := replay (allocatePeers "10.8.0.0/24"
    (candidates sampleServer (fun _ => "") tiedPeers))
  rw [Outcome.value_eq_some] at returned returned'
  rw [show (Program.play _ _ _).2.1 = Outcome.done out from returned] at run
  rw [show (Program.play _ _ _).2.1 = Outcome.done out' from returned'] at run'
  obtain ⟨-, -, reordered⟩ := dedupe_order_independent tiedPeers (fun _ => "") (by decide +kernel)
  obtain ⟨-, ⟨-, losing⟩, renders⟩ := reordered _ tiedPeers.reverse_perm
  refine ⟨by decide +kernel, losing, out, out', returned, returned', ?_⟩
  exact renders sampleServer (by decide +kernel) run run' "key"

end TunnelOperator.Controller
