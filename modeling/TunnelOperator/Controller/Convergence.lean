import TunnelOperator.Controller.Settling

/-! A second clean pass decides for good: whoever holds a key after the first keeps it,
no address is disputed any more, and a pool that is full stays full. -/
namespace TunnelOperator.Controller
open Program Resources

section Order
variable {wg : Wireguard} {current : ListedKeys} {first second : List WireguardPeer}

/-- Who holds a key does not depend on the order of the list. -/
theorem mem_keyHolders_perm (permuted : first.Perm second) (distinct : (first.map (·.key)).Nodup) :
    u ∈ keyHolders wg current first ↔ u ∈ keyHolders wg current second := by
  have same : ∀ {p}, p ∈ admissible wg first ↔ p ∈ admissible wg second := by
    intro p
    rw [mem_admissible, mem_admissible, permuted.mem_iff]
  rw [mem_keyHolders distinct, mem_keyHolders ((permuted.map _).nodup_iff.mp distinct)]
  simp only [Holder, same]

end Order

section Second
variable {c : Cluster} {req : NamespacedName} {wg : Wireguard} {range : Ipam.PeerCIDR}
  {id : ServerIdentity} {S items : List WireguardPeer}

theorem related_perm (permuted : items.Perm c.peers) (req : NamespacedName) :
    (relatedPeers req items).Perm (relatedPeers req c.peers) := permuted.filter _

/-- The listed peers hold their keys. -/
theorem Tidy.keyHolder (tidy : Tidy req wg range id c S) (permuted : items.Perm c.peers)
    (member : s ∈ S) :
    s ∈ keyHolders wg (c.listed req) (relatedPeers req items) := by
  have same := related_perm permuted req
  obtain ⟨related, passes⟩ := tidy.stored s member
  rw [mem_keyHolders (related_distinct permuted req)]
  refine ⟨mem_admissible.mpr ⟨same.mem_iff.mpr related, passes⟩, ?_⟩
  intro other competing keyed
  obtain ⟨related', passes'⟩ := mem_admissible.mp competing
  have mine := (tidy.listed s related passes).mpr member
  have theirs := tidy.listed other (same.mem_iff.mp related') passes'
  by_cases listing : other ∈ S
  · exact .inl (List.inj_on_of_nodup_map tidy.keys listing member keyed)
  · have unlisted : Controller.listed (c.listed req) other = false := by
      rw [Bool.eq_false_iff]
      exact fun here => listing (theirs.mp here)
    exact .inr (by simp [beats, mine, unlisted])

/-- A listed peer enters the allocation with its address, another key holder without. -/
theorem Tidy.cleared_cases (tidy : Tidy req wg range id c S)
    (reads : Ipam.Reads (effectivePeerCIDR4 wg) range) (related : h ∈ relatedPeers req c.peers) :
    (h ∈ S ∧ clearUnusable (effectivePeerCIDR4 wg) h = h ∧ range.Holds h.status.address) ∨
      (h ∉ S ∧ (clearUnusable (effectivePeerCIDR4 wg) h).status.address = "") := by
  by_cases listing : h ∈ S
  · have usable := (tidy.ready h listing).1
    exact .inl ⟨listing, clearUnusable_of_holds reads usable, usable⟩
  · rcases clearUnusable_cases reads h with ⟨usable, -⟩ | ⟨-, empty⟩
    · exact absurd usable (tidy.vacant h related listing)
    · exact .inr ⟨listing, empty⟩

theorem keyHolder_related (permuted : items.Perm c.peers)
    (holding : h ∈ keyHolders wg current (relatedPeers req items)) : h ∈ relatedPeers req c.peers :=
  (related_perm permuted req).mem_iff.mp (mem_admissible.mp (keyHolders_sublist.subset holding)).1

/-- No address is disputed. -/
theorem Tidy.candidate (tidy : Tidy req wg range id c S)
    (reads : Ipam.Reads (effectivePeerCIDR4 wg) range)
    (permuted : items.Perm c.peers)
    (holding : h ∈ keyHolders wg (c.listed req) (relatedPeers req items)) :
    clearUnusable (effectivePeerCIDR4 wg) h ∈ candidates wg (c.listed req)
      (relatedPeers req items) := by
  have entering := mem_cleared.mpr ⟨h, holding, rfl⟩
  refine (mem_candidates (related_distinct permuted req)).mpr ⟨entering, ?_⟩
  rcases tidy.cleared_cases reads (keyHolder_related permuted holding) with ⟨listing, kept, usable⟩
    | ⟨-, empty⟩
  · refine .inr ⟨entering, ?_⟩
    intro other otherEntering same
    obtain ⟨h', holding', rfl⟩ := mem_cleared.mp otherEntering
    rw [kept] at same ⊢
    rcases tidy.cleared_cases reads (keyHolder_related permuted holding') with ⟨listing', kept', -⟩
      | ⟨-, empty'⟩
    · rw [kept'] at same ⊢
      exact .inl (List.inj_on_of_nodup_map tidy.addresses listing' listing same)
    · exact absurd (same.symm.trans empty') usable.ne_empty
  · exact .inl empty

theorem Tidy.no_addressConflict (tidy : Tidy req wg range id c S)
    (reads : Ipam.Reads (effectivePeerCIDR4 wg) range) (permuted : items.Perm c.peers) :
    entry ∉ addressConflicts wg (c.listed req) (relatedPeers req items) := by
  intro conflicting
  have distinct := related_distinct permuted req
  obtain ⟨holder, holds, member, held, same, apart, -⟩ :=
    (mem_addressConflicts distinct).mp conflicting
  obtain ⟨h, holding, cleared⟩ := mem_cleared.mp member
  have entering := tidy.candidate reads permuted holding
  rw [cleared] at entering
  exact apart (candidates_unique distinct holds entering (same ▸ held) same)

/-- What the allocation decides: nothing about a listed peer, and about another key
holder whether an address is free. -/
theorem Tidy.allotted (tidy : Tidy req wg range id c S)
    (reads : Ipam.Reads (effectivePeerCIDR4 wg) range) (permuted : items.Perm c.peers)
    (member : allotment ∈ (plan wg (c.listed req) (relatedPeers req items)).allotments) :
    (∃ s ∈ S, allotment = .unchanged s) ∨
      ∃ h ∈ keyHolders wg (c.listed req) (relatedPeers req items), h ∉ S ∧
        (clearUnusable (effectivePeerCIDR4 wg) h).status.address = "" ∧ ∃ used,
          Allots (effectivePeerCIDR4 wg) used (clearUnusable (effectivePeerCIDR4 wg) h) allotment ∧
          (∀ s ∈ S, s.status.address ∈ used) ∧
          (∀ ip ∈ Ipam.deriveReservedIPs (effectivePeerCIDR4 wg), ip ∈ used) := by
  obtain ⟨candidate, entering, used, allots, -, covers, -⟩ := mem_allotments member
  obtain ⟨h, holding, rfl⟩ := mem_cleared.mp (dedupe_keep_sublist.subset entering)
  rcases tidy.cleared_cases reads (keyHolder_related permuted holding) with ⟨listing, kept, usable⟩
    | ⟨absent, empty⟩
  · refine .inl ⟨h, listing, ?_⟩
    rw [kept] at allots
    cases allots with
    | exhausted empty _ => exact absurd empty usable.ne_empty
    | fresh empty _ => exact absurd empty usable.ne_empty
    | renewed _ unsettled =>
      rw [(tidy.ready h listing).2.1] at unsettled
      contradiction
    | unchanged _ _ => rfl
  · refine .inr ⟨h, holding, absent, empty, used, allots, ?_, ?_⟩
    · intro s listing
      have enters := tidy.candidate reads permuted (tidy.keyHolder permuted listing)
      have usable := (tidy.ready s listing).1
      rw [clearUnusable_of_holds reads usable] at enters
      exact covers _ (Ipam.mem_getUsedIPs.mpr (.inr ⟨usable.ne_empty, s, enters, rfl⟩))
    · exact fun ip reserved => covers ip (Ipam.mem_getUsedIPs.mpr (.inl reserved))

/-- The listed peers are served as they are. -/
theorem Tidy.unchanged (tidy : Tidy req wg range id c S)
    (reads : Ipam.Reads (effectivePeerCIDR4 wg) range)
    (permuted : items.Perm c.peers) (listing : s ∈ S) :
    Allotment.unchanged s ∈ (plan wg (c.listed req) (relatedPeers req items)).allotments := by
  have enters := tidy.candidate reads permuted (tidy.keyHolder permuted listing)
  rw [clearUnusable_of_holds reads (tidy.ready s listing).1] at enters
  obtain ⟨allotment, allotted, named⟩ := exists_allotment enters
  have distinct := related_distinct permuted req
  have related := (related_perm permuted req).mem_iff.mpr (tidy.stored s listing).1
  rcases tidy.allotted reads permuted allotted with ⟨s', listing', rfl⟩
    | ⟨h, holding, absent, -, used, allots, -⟩
  · have equal : s' = s := List.inj_on_of_nodup_map distinct
      ((related_perm permuted req).mem_iff.mpr (tidy.stored s' listing').1) related named
    rw [← equal]
    exact allotted
  · have key : h.key = s.key := by
      rw [← named, ← key_of_object (clearUnusable_object (effectivePeerCIDR4 wg) h)]
      cases allots <;> rfl
    have equal : h = s := List.inj_on_of_nodup_map distinct
      ((related_perm permuted req).mem_iff.mpr (keyHolder_related permuted holding)) related key
    exact absurd (equal ▸ listing) absent

theorem Tidy.served (tidy : Tidy req wg range id c S)
    (reads : Ipam.Reads (effectivePeerCIDR4 wg) range)
    (permuted : items.Perm c.peers) (listing : s ∈ S) :
    s ∈ (plan wg (c.listed req) (relatedPeers req items)).served :=
  mem_plan_served.mpr ⟨_, tidy.unchanged reads permuted listing, rfl⟩

end Second

section Fixed
variable {c c' : Cluster} {req : NamespacedName} {wg : Wireguard} {range : Ipam.PeerCIDR}
  {id : ServerIdentity} {S items : List WireguardPeer} {secret : Secret}

/-- A tidy cluster in which every decision of the next pass is already recorded. -/
structure Fixed (req : NamespacedName) (wg : Wireguard) (range : Ipam.PeerCIDR)
    (id : ServerIdentity)
    (c : Cluster) (S : List WireguardPeer) : Prop extends Tidy req wg range id c S where
  outranked : ∀ u ∈ relatedPeers req c.peers, refusal wg u = none →
    ∀ h ∈ keyHolders wg (c.listed req) (relatedPeers req c.peers), h.spec.publicKey =
      u.spec.publicKey → h ≠ u →
      peerStatusMatches u (publicKeyConflict h.key.string) = true
  waiting : ∀ h ∈ keyHolders wg (c.listed req) (relatedPeers req c.peers), h ∉ S →
    peerStatusMatches (clearUnusable (effectivePeerCIDR4 wg) h)
      (addressPoolExhausted (effectivePeerCIDR4 wg)) = true ∧
      ∀ address, range.Holds address → ∃ s ∈ S, s.status.address = address

theorem listed_of_secret (minted : c.secrets req = some secret) :
    c.listed req = secretKeys secret := by
  simp [Cluster.listed, minted]

/-- Between two peers that state.json does not list the older one comes first. -/
theorem older_of_beats (wins : beats current a b = true) (mine : listed current a = false) :
    listed current b = false ∧ older a b = true := by
  unfold beats at wins
  cases theirs : listed current b with
  | true => simp [mine, theirs] at wins
  | false => exact ⟨rfl, by simpa [mine, theirs] using wins⟩

/-- Whoever holds a key in the pass after this one holds it in this one. -/
theorem keyHolder_kept (tidy : Tidy req wg range id c S)
    (reads : Ipam.Reads (effectivePeerCIDR4 wg) range)
    (minted : c.secrets req = some secret) (passed : Passed req wg secret items c events c')
    (related : h ∈ relatedPeers req items)
    (holding : applyWrites (passWrites wg (identityOf (assigned c wg) secret)
      (plan wg (secretKeys secret) (relatedPeers req items))) h ∈
        keyHolders wg (c'.listed req) (relatedPeers req c'.peers)) :
    h ∈ keyHolders wg (c.listed req) (relatedPeers req items) := by
  have distinct := related_distinct passed.permuted req
  have same := related_perm passed.permuted req
  have objects := applyWrites_object (passWrites wg (identityOf (assigned c wg) secret)
    (plan wg (secretKeys secret) (relatedPeers req items)))
  have holds := (mem_keyHolders (related_distinct (List.Perm.refl c'.peers) req)).mp holding
  have passes : refusal wg h = none := by
    rw [← refusal_congr wg (objects h)]
    exact (mem_admissible.mp holds.1).2
  have competes : h ∈ admissible wg (relatedPeers req items) := mem_admissible.mpr ⟨related, passes⟩
  obtain ⟨first, holding₁, keyed⟩ : ∃ first ∈ keyHolders wg (c.listed req) (relatedPeers req items),
      first.spec.publicKey = h.spec.publicKey := exists_keyHolder distinct competes
  obtain ⟨related₁, passes₁⟩ := mem_admissible.mp (keyHolders_sublist.subset holding₁)
  by_contra lost
  have apart : first.key ≠ h.key := by
    intro equal
    rw [List.inj_on_of_nodup_map distinct related₁ related equal] at holding₁
    exact lost holding₁
  -- The peer that wins later is not served now, so it is not listed then.
  have unlisted : listed (c'.listed req)
      (applyWrites (passWrites wg (identityOf (assigned c wg) secret)
      (plan wg (secretKeys secret) (relatedPeers req items))) h) = false := by
    rw [Bool.eq_false_iff, Ne, listed_synced passed related passes]
    rintro ⟨served, serving, named⟩
    obtain ⟨holder, holding', origin, -⟩ := mem_served reads distinct serving
    have equal : holder = h := List.inj_on_of_nodup_map distinct
      (mem_admissible.mp (keyHolders_sublist.subset holding')).1 related
      ((key_of_object origin).symm.trans named)
    rw [equal, ← listed_of_secret minted] at holding'
    exact lost holding'
  have rival : applyWrites (passWrites wg (identityOf (assigned c wg) secret)
      (plan wg (secretKeys secret) (relatedPeers req items))) first ∈ admissible wg
        (relatedPeers req c'.peers) :=
    mem_admissible.mpr ⟨(mem_related_passed passed).mpr ⟨first, related₁, rfl⟩,
      (refusal_congr wg (objects first)).trans passes₁⟩
  rcases holds.2 _ rival (by
    simp only [spec_of_object (objects first), spec_of_object (objects h), keyed]) with equal | wins
  · refine apart ?_
    rw [← key_of_object (objects first), equal, key_of_object (objects h)]
  obtain ⟨unlisted₁, elder⟩ := older_of_beats wins unlisted
  rw [older_congr (objects h) (objects first)] at elder
  -- Nor is the one that wins now, so neither was listed before.
  have outside₁ : first ∉ S := by
    intro listing
    rw [Bool.eq_false_iff, Ne, listed_synced passed related₁ passes₁] at unlisted₁
    refine unlisted₁ ⟨first, ?_, rfl⟩
    rw [← listed_of_secret minted]
    exact tidy.served reads passed.permuted listing
  have before₁ : listed (c.listed req) first = false := by
    rw [Bool.eq_false_iff, Ne, tidy.listed first (same.mem_iff.mp related₁) passes₁]
    exact outside₁
  rcases ((mem_keyHolders distinct).mp holding₁).2 h competes keyed.symm with equal | wins₁
  · exact apart (congrArg _ equal.symm)
  · have younger := (older_of_beats wins₁ before₁).2
    have impossible := older_trans elder younger
    rw [older_irrefl] at impossible
    contradiction

/-- Once a pass has run out of addresses, the peers it serves hold all of them. -/
theorem served_all_addresses (reads : Ipam.Reads (effectivePeerCIDR4 wg) range)
    (distinct : (peers.map (·.key)).Nodup)
    (full : Allotment.exhausted peer ∈ (plan wg current peers).allotments)
    (usable : range.Holds address) :
    ∃ served ∈ (plan wg current peers).served, served.status.address = address := by
  obtain ⟨candidate, -, used, allots, -, -, origins⟩ := mem_allotments full
  cases allots with
  | exhausted _ failed =>
    rcases origins address (Ipam.allocateIP_error reads failed usable) with held | served
    · rcases Ipam.mem_getUsedIPs.mp held with reserved | ⟨nonempty, holder, holding, same⟩
      · exact absurd reserved (usable.not_reserved reads)
      · obtain ⟨kept, keeping, -, address'⟩ := held_of_candidate distinct holding (same ▸ nonempty)
        obtain ⟨allotment, allotted, keeps⟩ := List.mem_filterMap.mp keeping
        refine ⟨kept, mem_plan_served.mpr ⟨allotment, allotted, ?_⟩, address'.trans same⟩
        cases allotment with
        | exhausted _ => contradiction
        | fresh _ => contradiction
        | renewed _ => exact keeps
        | unchanged _ => exact keeps
    · exact served

/-- A clean pass over a tidy cluster records all it decides. -/
theorem fixed_passed (tidy : Tidy req wg range id c S) (checked : CheckedSpec wg)
    (reads : Ipam.Reads (effectivePeerCIDR4 wg) range) (minted : c.secrets req = some secret)
    (passed : Passed req wg secret items c events c') :
    Fixed req wg range (identityOf (assigned c wg) secret) c'
      (synced wg (identityOf (assigned c wg) secret)
      (plan wg (secretKeys secret) (relatedPeers req items))) := by
  have distinct := related_distinct passed.permuted req
  have objects := applyWrites_object (passWrites wg (identityOf (assigned c wg) secret)
    (plan wg (secretKeys secret) (relatedPeers req items)))
  refine { tidy_passed checked reads passed with outranked := ?_, waiting := ?_ }
  · intro u' member passes h' holding keyed apart
    obtain ⟨u, related, rfl⟩ := (mem_related_passed passed).mp member
    obtain ⟨h, related', rfl⟩ := (mem_related_passed passed).mp
      (mem_admissible.mp (keyHolders_sublist.subset holding)).1
    have holding₁ := keyHolder_kept tidy reads minted passed related' holding
    rw [refusal_congr wg (objects u)] at passes
    rw [spec_of_object (objects h), spec_of_object (objects u)] at keyed
    rw [key_of_object (objects h)]
    rw [listed_of_secret minted] at holding₁
    refine refusal_recorded reads distinct (mem_refusals.mpr (.inr (.inl ?_))) _
    refine (mem_keyConflicts distinct).mpr
      ⟨h, holding₁, mem_admissible.mpr ⟨related, passes⟩, keyed, ?_, rfl⟩
    rintro rfl
    exact apart rfl
  · intro h' holding outside
    obtain ⟨h, related, rfl⟩ := (mem_related_passed passed).mp
      (mem_admissible.mp (keyHolders_sublist.subset holding)).1
    have holding₁ := keyHolder_kept tidy reads minted passed related holding
    have entering := tidy.candidate reads passed.permuted holding₁
    rw [listed_of_secret minted] at entering
    obtain ⟨allotment, allotted, named⟩ := exists_allotment entering
    rw [key_of_object (clearUnusable_object _ h)] at named
    rcases pass_settles (secretKeys secret) reads distinct
        (identityOf (assigned c wg) secret) related with
      ⟨served, serving, -, settled⟩ | ⟨absent, settled, -⟩
    · rw [settled] at outside
      exact absurd (List.mem_map_of_mem serving) outside
    · have unserved : allotment.served = none := by
        cases serves : allotment.served with
        | none => rfl
        | some served =>
          refine absurd ?_ (absent served (mem_plan_served.mpr ⟨allotment, allotted, serves⟩))
          rw [← allotment_served serves, named]
      obtain ⟨-, -, used, allots⟩ := allotment_origin distinct related allotted named
      rw [settled, applyWrites_allotted distinct allotted named]
      cases allots with
      | exhausted _ _ =>
        refine ⟨settle_exhausted _ h, fun address usable => ?_⟩
        obtain ⟨served, serving, same⟩ := served_all_addresses reads distinct allotted usable
        exact ⟨_, List.mem_map_of_mem serving, same⟩
      | fresh _ _ => contradiction
      | renewed _ _ => contradiction
      | unchanged _ _ => contradiction

end Fixed
end TunnelOperator.Controller
