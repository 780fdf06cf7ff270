import TunnelOperator.Controller.PeersProofs

/-! Who holds a public key and who holds an address among the peers of one pass. -/
namespace TunnelOperator.Controller
open Netip

section Dispute
variable {value : WireguardPeer → String} {wins : WireguardPeer → WireguardPeer → Bool}
  {peers : List WireguardPeer}

theorem disputed_eq_none : disputed value peer = none ↔ value peer = "" := by
  unfold disputed
  split <;> simp_all

theorem disputed_eq_iff (held : value peer ≠ "") :
    disputed value other = disputed value peer ↔ value other = value peer := by
  unfold disputed
  rw [if_neg held]
  split
  · rename_i empty
    simp [empty, Ne.symm held]
  · simp

/-- `peer` comes before every other peer with its value. -/
def Holder (value : WireguardPeer → String) (wins : WireguardPeer → WireguardPeer → Bool)
    (peers : List WireguardPeer) (peer : WireguardPeer) : Prop :=
  peer ∈ peers ∧ ∀ other ∈ peers, value other = value peer → other = peer ∨ wins peer other = true

theorem best_iff_holder (held : value peer ≠ "") :
    Election.Best (disputed value) wins peers peer ↔ Holder value wins peers peer := by
  simp only [Election.Best, Holder, disputed_eq_iff held]

theorem mem_dedupe_keep (ranks : Election.Ranks wins peers) :
    peer ∈ (dedupe value wins peers).1 ↔
      peer ∈ peers ∧ (value peer = "" ∨ Holder value wins peers peer) := by
  simp only [dedupe, Election.mem_keep ranks, disputed_eq_none]
  refine and_congr_right fun _ => ?_
  by_cases held : value peer = ""
  · simp [held]
  · simp [held, best_iff_holder held]

theorem mem_dedupe_losers (ranks : Election.Ranks wins peers) :
    loser ∈ (dedupe value wins peers).2 ↔ ∃ peer holder, loser = ⟨peer, holder.key.string⟩ ∧
      peer ∈ peers ∧ value peer ≠ "" ∧ value holder = value peer ∧ holder ≠ peer ∧
        Holder value wins peers holder := by
  simp only [dedupe, List.mem_map, Prod.exists, Election.mem_losers ranks]
  constructor
  · rintro ⟨peer, holder, ⟨member, some_, same, ne, best⟩, rfl⟩
    have held : value peer ≠ "" := fun empty => some_ (disputed_eq_none.mpr empty)
    have same' := (disputed_eq_iff held).mp same
    exact ⟨peer, holder, rfl, member, held, same', ne, (best_iff_holder (same' ▸ held)).mp best⟩
  · rintro ⟨peer, holder, rfl, member, held, same, ne, best⟩
    refine ⟨peer, holder, ⟨member, fun empty => held (disputed_eq_none.mp empty), ?_, ne, ?_⟩, rfl⟩
    · exact (disputed_eq_iff held).mpr same
    · exact (best_iff_holder (same ▸ held)).mpr best

theorem dedupe_keep_sublist : (dedupe value wins peers).1.Sublist peers :=
  Election.keep_sublist peers

theorem Holder.unique (ranks : Election.Ranks wins peers) (held : value first ≠ "")
    (one : Holder value wins peers first) (two : Holder value wins peers second)
    (same : value first = value second) : first = second :=
  Election.Best.unique ranks ((best_iff_holder held).mpr one)
    ((best_iff_holder (same ▸ held)).mpr two) ((disputed_eq_iff (same ▸ held)).mpr same)

theorem exists_holder (ranks : Election.Ranks wins peers) (member : peer ∈ peers)
    (held : value peer ≠ "") : ∃ holder, Holder value wins peers holder ∧
      value holder = value peer := by
  have claims : disputed value peer = some (value peer) := if_neg held
  obtain ⟨best, isBest, holds⟩ := Election.exists_best ranks member claims
  have same : value best = value peer := (disputed_eq_iff held).mp (holds.trans claims.symm)
  exact ⟨best, (best_iff_holder (same ▸ held)).mp isBest, same⟩

end Dispute

section Pass
variable {wg : Wireguard} {current : ListedKeys} {peers : List WireguardPeer}

theorem refusal_eq_none_iff (wg : Wireguard) (peer : WireguardPeer) : refusal wg peer = none ↔
    namespaceNotAllowed wg peer = none ∧ CanonicalKey peer.spec.publicKey := by
  rw [← admissionProblem_eq_none_iff]
  unfold refusal
  cases namespaceNotAllowed wg peer <;> simp

theorem mem_admissible : peer ∈ admissible wg peers ↔ peer ∈ peers ∧ refusal wg peer = none := by
  simp [admissible]

theorem mem_refused : (peer, nr) ∈ refused wg peers ↔ peer ∈ peers ∧ refusal wg peer = some nr := by
  simp only [refused, List.mem_filterMap, Option.map_eq_some_iff, Prod.mk.injEq]
  constructor
  · rintro ⟨p, member, r, problem, rfl, rfl⟩
    exact ⟨member, problem⟩
  · rintro ⟨member, problem⟩
    exact ⟨peer, member, nr, problem, rfl, rfl⟩

theorem admissible_key_ne_empty (member : peer ∈ admissible wg peers) : peer.spec.publicKey ≠ "" :=
  ((refusal_eq_none_iff wg peer).mp (mem_admissible.mp member).2).2.ne_empty

theorem admissible_distinct (distinct : (peers.map (·.key)).Nodup) :
    ((admissible wg peers).map (·.key)).Nodup := distinct.sublist (List.filter_sublist.map _)

theorem mem_keyHolders (distinct : (peers.map (·.key)).Nodup) :
    peer ∈ keyHolders wg current peers ↔
      Holder (·.spec.publicKey) (beats current) (admissible wg peers) peer := by
  unfold keyHolders dedupePublicKeys
  rw [mem_dedupe_keep (ranks_beats current (admissible_distinct distinct))]
  constructor
  · rintro ⟨member, empty | holder⟩
    · exact absurd empty (admissible_key_ne_empty member)
    · exact holder
  · intro holder
    exact ⟨holder.1, .inr holder⟩

theorem mem_keyConflicts (distinct : (peers.map (·.key)).Nodup) :
    (peer, nr) ∈ keyConflicts wg current peers ↔ ∃ holder ∈ keyHolders wg current peers,
      peer ∈ admissible wg peers ∧ holder.spec.publicKey = peer.spec.publicKey ∧ holder ≠ peer ∧
        nr = publicKeyConflict holder.key.string := by
  unfold keyConflicts dedupePublicKeys
  simp only [List.mem_map, Prod.mk.injEq, mem_keyHolders distinct,
    mem_dedupe_losers (ranks_beats current (admissible_distinct distinct))]
  constructor
  · rintro ⟨_, ⟨p, holder, rfl, member, -, same, ne, holds⟩, rfl, rfl⟩
    exact ⟨holder, holds, member, same, ne, rfl⟩
  · rintro ⟨holder, holds, member, same, ne, rfl⟩
    exact ⟨_, ⟨peer, holder, rfl, member, admissible_key_ne_empty member, same, ne, holds⟩, rfl,
      rfl⟩

theorem keyHolders_sublist : (keyHolders wg current peers).Sublist (admissible wg peers) :=
  dedupe_keep_sublist

theorem keyHolders_unique (distinct : (peers.map (·.key)).Nodup)
    (one : first ∈ keyHolders wg current peers) (two : second ∈ keyHolders wg current peers)
    (same : first.spec.publicKey = second.spec.publicKey) : first = second := by
  rw [mem_keyHolders distinct] at one two
  exact one.unique (ranks_beats current (admissible_distinct distinct))
    (admissible_key_ne_empty one.1) two same

/-- Every admissible peer keeps its key or loses it to the one that does. -/
theorem exists_keyHolder (distinct : (peers.map (·.key)).Nodup)
    (member : peer ∈ admissible wg peers) :
    ∃ holder ∈ keyHolders wg current peers, holder.spec.publicKey = peer.spec.publicKey := by
  obtain ⟨holder, holds, same⟩ : ∃ holder, Holder (·.spec.publicKey) (beats current)
      (admissible wg peers) holder ∧ holder.spec.publicKey = peer.spec.publicKey :=
    exists_holder (ranks_beats current (admissible_distinct distinct)) member
      (admissible_key_ne_empty member)
  exact ⟨holder, (mem_keyHolders distinct).mpr holds, same⟩

end Pass
end TunnelOperator.Controller
