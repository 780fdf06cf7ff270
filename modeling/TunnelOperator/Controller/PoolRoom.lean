import TunnelOperator.Controller.Allocation
import TunnelOperator.Library.Pool

/-! The addresses of a range in ascending order, and AllocateIP as first fit among them: it
hands out the least address that is usable and that no peer holds. -/
namespace TunnelOperator.Controller
open Netip Pool

section Range
variable {cidr : String} {range : Ipam.PeerCIDR} {used : List String}

/-- The addresses of the range, ascending. -/
def rangeValues (range : Ipam.PeerCIDR) : List (BitVec 32) :=
  (List.range' 0 (2 ^ (32 - range.bits))).map fun i => range.base + BitVec.ofNat 32 i

def rangeTexts (range : Ipam.PeerCIDR) : List String :=
  (rangeValues range).map fun value => (Addr.v4 value).string

theorem texts_eq (range : Ipam.PeerCIDR) :
    (Ipam.addresses range.net).map Ipam.ipString = rangeTexts range := by
  simp only [Ipam.addresses, Ipam.PeerCIDR.net, rangeTexts, rangeValues, List.map_map]
  rfl

theorem mem_values : value ∈ rangeValues range ↔ range.net.contains (.v4 value) = true := by
  rw [← Ipam.mem_addresses]
  simp [rangeValues, Ipam.addresses, Ipam.PeerCIDR.net]

theorem values_ascending (range : Ipam.PeerCIDR) : (rangeValues range).Pairwise (· < ·) := by
  obtain ⟨q, base, room⟩ := range.base_multiple
  rw [rangeValues, List.pairwise_map]
  refine List.Pairwise.imp_of_mem ?_ (List.pairwise_lt_range' 1)
  intro i j iMember jMember below
  rw [List.mem_range'_1] at iMember jMember
  have plain : ∀ k, k < 2 ^ (32 - range.bits) →
      (range.base + BitVec.ofNat 32 k).toNat = range.base.toNat + k := by
    intro k small
    rw [BitVec.toNat_add, BitVec.toNat_ofNat, Nat.mod_eq_of_lt (a := k) (by omega),
      Nat.mod_eq_of_lt (by omega)]
  rw [BitVec.lt_def, plain i (by omega), plain j (by omega)]
  omega

theorem addresses_ipnetgen : Ipam.Ipnetgen Ipam.addresses where
  ascending range :=
    ⟨rangeValues range, by simp [rangeValues, Ipam.addresses, Ipam.PeerCIDR.net],
      values_ascending range⟩
  every range _ := Ipam.mem_addresses range _

theorem nodup_of_ascending {values : List (BitVec 32)} (ascending : values.Pairwise (· < ·)) :
    values.Nodup := by
  refine ascending.imp ?_
  rintro value _ below rfl
  exact BitVec.lt_irrefl value below

/-- The promise leaves the generator no choice. -/
theorem ipnetgen_unique {other : Net.IPNet → List Addr} (first : Ipam.Ipnetgen generate)
    (second : Ipam.Ipnetgen other) (range : Ipam.PeerCIDR) :
    generate range.net = other range.net := by
  obtain ⟨values, same, ascending⟩ := first.ascending range
  obtain ⟨values', same', ascending'⟩ := second.ascending range
  have members : ∀ value, value ∈ values ↔ value ∈ values' := by
    intro value
    rw [← List.mem_map_of_injective (f := Addr.v4) fun _ _ => Addr.v4.inj, ← same, first.every,
      ← second.every, same', List.mem_map_of_injective fun _ _ => Addr.v4.inj]
  have perm : values.Perm values' := (List.perm_ext_iff_of_nodup (nodup_of_ascending ascending)
    (nodup_of_ascending ascending')).mpr members
  have asymmetric : ∀ a b : BitVec 32, a ∈ values → b ∈ values' → a < b → b < a → a = b :=
    fun a _ _ _ below above => absurd (BitVec.lt_trans below above) (BitVec.lt_irrefl a)
  rw [same, same', perm.eq_of_pairwise asymmetric ascending ascending']

/-- Any such generator makes the same allocator. -/
theorem allocateFrom_eq (ipnetgen : Ipam.Ipnetgen generate) (reads : Ipam.Reads cidr range)
    (used : List String) :
    Ipam.allocateFrom generate cidr used = Ipam.allocateIP cidr used := by
  simp only [Ipam.allocateIP, Ipam.allocateFrom, Ipam.reads_v4 reads,
    ipnetgen_unique ipnetgen addresses_ipnetgen]

theorem texts_nodup (range : Ipam.PeerCIDR) : (rangeTexts range).Nodup :=
  List.Nodup.map (fun _ _ => string_v4_injective) (nodup_of_ascending (values_ascending range))

theorem texts_length (range : Ipam.PeerCIDR) :
    (rangeTexts range).length = 2 ^ (32 - range.bits) := by
  simp [rangeTexts, rangeValues]

theorem mem_texts_of_holds (holds : range.Holds address) : address ∈ rangeTexts range := by
  obtain ⟨value, rfl, inside, -⟩ := holds
  exact List.mem_map_of_mem (mem_values.mpr inside)

theorem reserved_mem_texts (reads : Ipam.Reads cidr range) :
    (Ipam.deriveReservedIPs cidr).Nodup ∧ Ipam.deriveReservedIPs cidr ⊆ rangeTexts range := by
  have room : 2 ^ 2 ≤ 2 ^ (32 - range.bits) :=
    Nat.pow_le_pow_right (by decide) (by have := range.roomy; omega)
  have inside : ∀ i, i < 4 → (Addr.v4 (range.base + BitVec.ofNat 32 i)).string ∈
      rangeTexts range := by
    intro i small
    refine List.mem_map_of_mem (List.mem_map_of_mem ?_)
    rw [List.mem_range'_1]
    omega
  rw [Ipam.reserved reads]
  constructor
  · simp only [List.nodup_cons, List.mem_singleton, List.not_mem_nil, not_false_eq_true,
      List.nodup_nil, and_true]
    intro same
    have next := string_v4_injective same
    bv_omega
  · simp only [List.cons_subset, List.nil_subset, and_true]
    exact ⟨by simpa using inside 0 (by decide), inside 1 (by decide)⟩

/-- AllocateIP takes the first unused address of the range. -/
theorem allocateIP_unused (reads : Ipam.Reads cidr range) : Ipam.allocateIP cidr used =
    match unused (rangeTexts range) used with
    | ip :: _ => .ok ip
    | [] => .error ("no available IP found in " ++ cidr) := by
  have first : (rangeTexts range).find? (fun ip => !Ipam.isUsed ip used) =
      (unused (rangeTexts range) used).head? := by
    rw [unused, List.head?_filter]
    congr 1
    funext ip
    simp [Ipam.isUsed]
  rw [Ipam.allocateIP_eq reads, texts_eq, first]
  cases unused (rangeTexts range) used <;> rfl

end Range

section Least
variable {cidr : String} {range : Ipam.PeerCIDR} {peers : List WireguardPeer}

/-- An address a peer could get: usable, and held by none. -/
def Open (cidr : String) (peers : List WireguardPeer) (value : BitVec 32) : Prop :=
  addressUsable (Addr.v4 value).string cidr = true ∧ ∀ peer ∈ peers,
    peer.status.address ≠ (Addr.v4 value).string

theorem open_iff (reads : Ipam.Reads cidr range) : Open cidr peers value ↔
    value ∈ rangeValues range ∧ (Addr.v4 value).string ∉ Ipam.getUsedIPs cidr peers := by
  have nonempty := string_v4_ne_empty value
  rw [Ipam.mem_getUsedIPs, Ipam.reserved reads, Open, addressUsable_iff reads, mem_values]
  simp only [List.mem_cons, List.not_mem_nil, or_false, not_or, not_and, not_exists]
  constructor
  · rintro ⟨⟨other, same, inside, network, first⟩, free⟩
    obtain rfl := string_v4_injective same
    exact ⟨inside, ⟨fun same => network (string_v4_injective same),
      fun same => first (string_v4_injective same)⟩, fun _ => free⟩
  · rintro ⟨inside, ⟨network, first⟩, free⟩
    exact ⟨⟨value, rfl, inside, fun same => network (same ▸ rfl), fun same => first (same ▸ rfl)⟩,
      free nonempty⟩

theorem allocateIP_least (reads : Ipam.Reads cidr range) :
    Ipam.allocateIP cidr (Ipam.getUsedIPs cidr peers) = .ok ip ↔
      ∃ value, ip = (Addr.v4 value).string ∧ IsLeast {v | Open cidr peers v} value := by
  have texts_find : (rangeTexts range).find?
      (fun ip => !Ipam.isUsed ip (Ipam.getUsedIPs cidr peers)) =
      ((rangeValues range).find? fun v => !Ipam.isUsed (Addr.v4 v).string
        (Ipam.getUsedIPs cidr peers)).map fun v => (Addr.v4 v).string := List.find?_map ..
  have open_test : ∀ v ∈ rangeValues range,
      (!Ipam.isUsed (Addr.v4 v).string (Ipam.getUsedIPs cidr peers)) = true ↔
        Open cidr peers v := by
    intro v inside
    rw [open_iff reads]
    simp [Ipam.isUsed, inside]
  rw [Ipam.allocateIP_eq reads, texts_eq, texts_find]
  cases found : (rangeValues range).find? fun v => !Ipam.isUsed (Addr.v4 v).string
      (Ipam.getUsedIPs cidr peers) with
  | none =>
    simp only [Option.map_none, reduceCtorEq, false_iff, not_exists, not_and]
    intro value _ least
    have member := ((open_iff reads).mp least.1).1
    exact List.find?_eq_none.mp found value member ((open_test value member).mpr least.1)
  | some first =>
    have member := List.mem_of_find?_eq_some found
    have least : IsLeast {v | Open cidr peers v} first := by
      have passes := (List.find?_eq_some_iff_append.mp found).1
      refine ⟨(open_test first member).mp passes, fun other free => ?_⟩
      have inside := ((open_iff reads).mp free).1
      rcases find?_first (values_ascending range) found inside
        ((open_test other inside).mpr free) with rfl | below
      · exact BitVec.le_refl _
      · exact BitVec.le_of_lt below
    simp only [Option.map_some, Except.ok.injEq]
    constructor
    · rintro rfl
      exact ⟨first, rfl, least⟩
    · rintro ⟨value, rfl, other⟩
      rw [BitVec.le_antisymm (least.2 other.1) (other.2 least.1)]

theorem allocateIP_full (reads : Ipam.Reads cidr range) :
    (∃ message, Ipam.allocateIP cidr (Ipam.getUsedIPs cidr peers) = .error message) ↔
      ∀ address, addressUsable address cidr = true → ∃ peer ∈ peers, peer.status.address =
        address := by
  constructor
  · rintro ⟨message, failed⟩ address usable
    have holds := (addressUsable_iff reads).mp usable
    have taken := Ipam.mem_getUsedIPs.mp (Ipam.allocateIP_error reads failed holds)
    exact (taken.resolve_left (holds.not_reserved reads)).2
  · intro all
    cases allocated : Ipam.allocateIP cidr (Ipam.getUsedIPs cidr peers) with
    | error message => exact ⟨message, rfl⟩
    | ok ip =>
      obtain ⟨value, -, free, -⟩ := (allocateIP_least reads).mp allocated
      obtain ⟨peer, member, same⟩ := all _ free.1
      exact absurd same (free.2 peer member)

end Least

end TunnelOperator.Controller
