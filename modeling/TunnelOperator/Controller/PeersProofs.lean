import TunnelOperator.Controller.Plan
import TunnelOperator.IpamProofs

/-! What each rule of peers.go decides, in terms of the values it reads. -/
namespace TunnelOperator.Controller
open Netip

section Order

theorem older_iff (a b : WireguardPeer) : older a b = true ↔
    a.creationTimestamp < b.creationTimestamp ∨ a.creationTimestamp = b.creationTimestamp ∧
      (a.name < b.name ∨ a.name = b.name ∧ a.nameSpace < b.nameSpace) := by
  simp only [older, decide_eq_true_eq, Ordering.then_eq_lt, compare_lt_iff_lt, compare_eq_iff_eq]

theorem older_irrefl (a : WireguardPeer) : older a a = false := by
  rw [Bool.eq_false_iff, Ne, older_iff]
  simp

theorem older_trans {a b c : WireguardPeer} (first : older a b = true) (second : older b c = true) :
    older a c = true := by
  rw [older_iff] at *
  rcases first with h | ⟨h, h' | ⟨h', h''⟩⟩ <;> rcases second with k | ⟨k, k' | ⟨k', k''⟩⟩
  · exact .inl (h.trans k)
  · exact .inl (k ▸ h)
  · exact .inl (k ▸ h)
  · exact .inl (h ▸ k)
  · exact .inr ⟨h.trans k, .inl (h'.trans k')⟩
  · exact .inr ⟨h.trans k, .inl (k' ▸ h')⟩
  · exact .inl (h ▸ k)
  · exact .inr ⟨h.trans k, .inl (h' ▸ k')⟩
  · exact .inr ⟨h.trans k, .inr ⟨h'.trans k', h''.trans k''⟩⟩

theorem older_total {a b : WireguardPeer} (distinct : a.key ≠ b.key) :
    older a b = true ∨ older b a = true := by
  simp only [older_iff]
  rcases lt_trichotomy a.creationTimestamp b.creationTimestamp with h | h | h
  · exact .inl (.inl h)
  · rcases lt_trichotomy a.name b.name with h' | h' | h'
    · exact .inl (.inr ⟨h, .inl h'⟩)
    · rcases lt_trichotomy a.nameSpace b.nameSpace with h'' | h'' | h''
      · exact .inl (.inr ⟨h, .inr ⟨h', h''⟩⟩)
      · exact absurd (by simp [WireguardPeer.key, h', h'']) distinct
      · exact .inr (.inr ⟨h.symm, .inr ⟨h'.symm, h''⟩⟩)
    · exact .inr (.inr ⟨h.symm, .inl h'⟩)
  · exact .inr (.inl h)

variable {peers : List WireguardPeer}

theorem ranks_older (distinct : (peers.map (·.key)).Nodup) : Election.Ranks older peers where
  irrefl := older_irrefl
  trans := older_trans
  total := (List.pairwise_map.mp distinct).imp older_total

theorem beats_irrefl (current : ListedKeys) (a : WireguardPeer) : beats current a a = false := by
  simp [beats, older_irrefl]

theorem beats_trans {current : ListedKeys} {a b c : WireguardPeer}
    (first : beats current a b = true) (second : beats current b c = true) :
    beats current a c = true := by
  unfold beats at *
  cases la : listed current a <;> cases lb : listed current b <;> cases lc : listed current c <;>
    simp_all
  · exact older_trans first second
  · exact older_trans first second

theorem beats_total {current : ListedKeys} {a b : WireguardPeer} (distinct : a.key ≠ b.key) :
    beats current a b = true ∨ beats current b a = true := by
  unfold beats
  cases la : listed current a <;> cases lb : listed current b <;> simp
  · exact older_total distinct
  · exact older_total distinct

theorem ranks_beats (current : ListedKeys) (distinct : (peers.map (·.key)).Nodup) :
    Election.Ranks (beats current) peers where
  irrefl := beats_irrefl current
  trans := beats_trans
  total := (List.pairwise_map.mp distinct).imp beats_total

/-! The order of state.json. -/

theorem notAfter_iff (a b : WireguardPeer) :
    NotAfter a b ↔ a.name < b.name ∨ a.name = b.name ∧ a.nameSpace ≤ b.nameSpace := by
  simp only [NotAfter, Ne, Ordering.then_eq_gt, compare_gt_iff_gt, compare_eq_iff_eq, not_or,
    not_and, not_lt]
  constructor
  · rintro ⟨names, spaces⟩
    rcases lt_or_eq_of_le names with before | same
    · exact .inl before
    · exact .inr ⟨same, spaces same⟩
  · rintro (before | ⟨same, spaces⟩)
    · exact ⟨before.le, fun same => absurd same before.ne⟩
    · exact ⟨same.le, fun _ => spaces⟩

instance : Std.Total NotAfter where
  total a b := by
    simp only [notAfter_iff]
    rcases lt_trichotomy a.name b.name with before | same | after
    · exact .inl (.inl before)
    · rcases le_total a.nameSpace b.nameSpace with spaces | spaces
      · exact .inl (.inr ⟨same, spaces⟩)
      · exact .inr (.inr ⟨same.symm, spaces⟩)
    · exact .inr (.inl after)

instance : IsTrans WireguardPeer NotAfter where
  trans a b c first second := by
    rw [notAfter_iff] at *
    rcases first with before | ⟨same, spaces⟩ <;> rcases second with before' | ⟨same', spaces'⟩
    · exact .inl (before.trans before')
    · exact .inl (same' ▸ before)
    · exact .inl (same ▸ before')
    · exact .inr ⟨same.trans same', spaces.trans spaces'⟩

theorem key_of_notAfter {a b : WireguardPeer} (first : NotAfter a b) (second : NotAfter b a) :
    a.key = b.key := by
  rw [notAfter_iff] at first second
  rcases first with before | ⟨same, spaces⟩
  · rcases second with after | ⟨same, -⟩
    · exact absurd after before.asymm
    · exact absurd same.symm before.ne
  · rcases second with after | ⟨-, spaces'⟩
    · exact absurd same.symm after.ne
    · simp [WireguardPeer.key, same, le_antisymm spaces spaces']

/-- The order in which the peers were admitted does not show in the state. -/
theorem desiredState_perm {first second : List WireguardPeer} (distinct : (first.map (·.key)).Nodup)
    (permuted : first.Perm second) (wg : Wireguard) (privateKey : String) :
    desiredState wg privateKey first = desiredState wg privateKey second := by
  have shown : (first.map rendered).Perm (second.map rendered) := permuted.map rendered
  have one := List.perm_insertionSort NotAfter (first.map rendered)
  have two := List.perm_insertionSort NotAfter (second.map rendered)
  have names : ((first.map rendered).map (·.key)).Nodup := by
    rw [List.map_map]
    exact distinct
  have same : (first.map rendered).insertionSort NotAfter =
      (second.map rendered).insertionSort NotAfter := by
    refine List.Perm.eq_of_pairwise ?_ (List.pairwise_insertionSort NotAfter _)
      (List.pairwise_insertionSort NotAfter _) (one.trans (shown.trans two.symm))
    intro a b inFirst inSecond before after
    exact List.inj_on_of_nodup_map names (one.mem_iff.mp inFirst)
      (shown.mem_iff.mpr (two.mem_iff.mp inSecond)) (key_of_notAfter before after)
  simp only [desiredState, same]

end Order

/-- The text of a WireGuard key, as wgtypes prints it. -/
def CanonicalKey (text : String) : Prop := ∃ key : Wgtypes.Key, text = key.string

theorem admissionProblem_eq_none_iff (peer : WireguardPeer) :
    admissionProblem peer = none ↔ CanonicalKey peer.spec.publicKey := by
  unfold admissionProblem CanonicalKey
  constructor
  · intro passed
    dsimp only at passed
    split at passed
    · contradiction
    · split at passed
      · contradiction
      · rename_i key parsed
        split at passed
        · contradiction
        · rename_i same
          exact ⟨key, (not_not.mp same).symm⟩
  · rintro ⟨key, text⟩
    simp [text, Wgtypes.parseKey_string, Wgtypes.Key.string_ne_empty]

theorem CanonicalKey.ne_empty {text : String} (canonical : CanonicalKey text) : text ≠ "" := by
  obtain ⟨key, rfl⟩ := canonical
  exact key.string_ne_empty

/-- The range a valid peerCIDR denotes. -/
theorem validatePeerCIDR_ok {cidr : String} (valid : validatePeerCIDR cidr = .ok ()) :
    ∃ range, Ipam.Reads cidr range := by
  unfold validatePeerCIDR at valid
  split at valid
  · contradiction
  · rename_i p parsed
    split at valid
    · contradiction
    · rename_i family
      split at valid
      · contradiction
      · rename_i canonical
        split at valid
        · contradiction
        · rename_i roomy
          obtain ⟨addr, bits, fits⟩ := p
          cases addr with
          | v6 value zone => simp [Addr.is4] at family
          | v4 base =>
            have masked := congrArg Prefix.addr (not_not.mp canonical)
            exact ⟨⟨base, bits, Nat.not_lt.mp roomy, (Addr.v4.inj masked).symm⟩, parsed⟩

theorem addressUsable_iff {addr cidr4 : String} {range : Ipam.PeerCIDR}
    (reads : Ipam.Reads cidr4 range) :
    addressUsable addr cidr4 = true ↔ range.Holds addr := by
  have next : (Addr.v4 range.base).next = some (.v4 (range.base + 1)) := by
    simp only [Addr.next, if_neg range.base_add_one_ne_zero]
  have family : range.net.addr = .v4 range.base := rfl
  unfold addressUsable Ipam.PeerCIDR.Holds
  rw [reads]
  cases parsed : parseAddr addr with
  | error message =>
    simp only [Bool.false_eq_true, false_iff, not_exists, not_and]
    rintro value rfl
    rw [parseAddr_string] at parsed
    contradiction
  | ok a =>
    simp only [range.net_masked, next, family, Bool.and_eq_true, decide_eq_true_eq, ne_eq,
      Option.some.injEq]
    constructor
    · rintro ⟨⟨inside, notNetwork⟩, notFirst⟩
      obtain ⟨value, rfl, -⟩ := (Prefix.contains_v4 family).mp inside
      refine ⟨value, parseAddr_v4_iff.mp parsed, inside, ?_, ?_⟩
      · rintro rfl
        exact notNetwork rfl
      · rintro rfl
        exact notFirst rfl
    · rintro ⟨value, rfl, inside, notNetwork, notFirst⟩
      rw [parseAddr_string] at parsed
      obtain rfl := Except.ok.inj parsed
      refine ⟨⟨inside, ?_⟩, ?_⟩
      · rintro same
        exact notNetwork (Addr.v4.inj same)
      · rintro same
        exact notFirst (Addr.v4.inj same).symm

end TunnelOperator.Controller
