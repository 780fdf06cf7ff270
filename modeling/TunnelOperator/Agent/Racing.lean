import TunnelOperator.Agent.StaleEntries
import TunnelOperator.Agent.Sync
import TunnelOperator.Library.Interference

/-! Syncs that race: the agent runs one for a new state and one for each health probe, with
no lock between them. -/
namespace TunnelOperator.Agent
open Net Netip Program

section Rules
variable (wg : ServerLink) (state : State) (gw : Addr)

/-- A link that is changed only by Syncs of one state. -/
structure Advances (l l' : Link ServerDevice) : Prop where
  name : l'.name = l.name
  mtu : l.mtu = serverMTU → l'.mtu = serverMTU
  up : l.up = true → l'.up = true
  address : .single gw ∈ l.addresses → .single gw ∈ l'.addresses
  others : p ∈ l'.addresses → p = .single gw ∨ p ∈ l.addresses
  peers : Improves state l.device.peers l'.device.peers
  key : l.device.privateKey = Wgtypes.parseKey state.serverPrivateKey →
    l'.device.privateKey = Wgtypes.parseKey state.serverPrivateKey
  port : l.device.listenPort = wg.listenPort → l'.device.listenPort = wg.listenPort

/-- A route of the link goes only while there is another address to delete on it. -/
structure Meanwhile (n n' : NetNS ServerDevice) : Prop where
  links : n.links i = some l → l.name = wg.iface → ∃ l', n'.links i = some l' ∧
    Advances wg state gw l l'
  routes : n.links r.linkIndex = some l → l.name = wg.iface → (∀ p ∈ l.addresses, p = .single gw) →
    r ∈ n.routes → r ∈ n'.routes

/-- A configuration for the state, computed from some device. -/
structure ConfigFor (cfg : Config) : Prop where
  keeps : cfg.replacePeers = false
  wants : ∀ p ∈ cfg.peers, Wants state p
  key : Wgtypes.parseKey state.serverPrivateKey = some cfg.privateKey
  port : cfg.listenPort = wg.listenPort

/-- The calls of a Sync of the state. -/
def SyncCall : NetCall Config → Prop
  | .system (.linkSetMTU _ mtu) => mtu = serverMTU
  | .system (.addrDel _ p) => p ≠ .single gw
  | .system (.addrAdd _ p) => p = .single gw
  | .system (.configureDevice _ cfg) => ConfigFor wg state cfg
  | _ => True

end Rules

variable {wg : ServerLink} {state : State} {gw : Addr} {n n' : NetNS ServerDevice}
    {l l' : Link ServerDevice}

theorem Advances.refl (l : Link ServerDevice) : Advances wg state gw l l :=
  ⟨rfl, id, id, id, .inr, .refl state _, id, id⟩

theorem Advances.trans {l'' : Link ServerDevice} (first : Advances wg state gw l l')
    (second : Advances wg state gw l' l'') :
    Advances wg state gw l l'' where
  name := second.name.trans first.name
  mtu := second.mtu ∘ first.mtu
  up := second.up ∘ first.up
  address := second.address ∘ first.address
  others member := (second.others member).elim .inl first.others
  peers := first.peers.trans second.peers
  key := second.key ∘ first.key
  port := second.port ∘ first.port

theorem ConfigFor.improves (servable : Servable state) (config : ConfigFor wg state cfg) :
    Improves state device (configureDevice device cfg) := by
  have applied : configureDevice device cfg = device.applyAll
      (cfg.peers.map PeerConfig.change) := by
    simp [configureDevice, config.keeps]
  rw [applied]
  exact (Improves.refl state device).applyAll servable config.wants

theorem ConfigFor.take (config : ConfigFor wg state cfg) (k : Nat) :
    ConfigFor wg state { cfg with peers := cfg.peers.take k } :=
  ⟨config.keeps, fun p member => config.wants p (List.mem_of_mem_take member), config.key,
    config.port⟩

/-- A link that has no other address than the server's keeps its routes. -/
theorem syncCall_routes (rules : SyncCall wg state gw request)
    (step : netEnv serverDriver n request answer n')
    (there : n.links r.linkIndex = some l) (only : ∀ p ∈ l.addresses, p = .single gw)
    (member : r ∈ n.routes) :
    r ∈ n'.routes := by
  obtain ⟨m, path, answered⟩ := step
  have here := appeared_links path there
  have before : r ∈ m.routes := (appeared_rest path).1 ▸ member
  cases answered with
  | @addressDeleted j old p left at_ held forgets =>
    refine forgets.others before fun same => ?_
    obtain rfl : l = old := Option.some.inj (here.symm.trans (same ▸ at_))
    exact rules (only p held)
  | routeAdded => exact List.mem_append_left _ before
  | _ => exact before

/-- What a call of a Sync does to the link it is about. -/
theorem syncCall_meanwhile (servable : Servable state) (rules : SyncCall wg state gw request)
    (step : netEnv serverDriver n request answer n') : Meanwhile wg state gw n n' where
  routes there _ only member := syncCall_routes rules step there only member
  links := by
    intro i l there name
    obtain ⟨m, path, answered⟩ := id step
    have here := appeared_links path there
    have changed : ∀ {j : Nat} {old new : Link ServerDevice} (at_ : m.links j = some old)
        (same : new.name = old.name), Advances wg state gw old new →
        ∃ l', (m.change at_ new same).links i = some l' ∧ Advances wg state gw l l' :=
      fun at_ same advances => NetNS.change_relates _ here at_ same (.refl l) fun _ => advances
    cases answered with
    | mtuSet at_ => exact changed at_ _ ⟨rfl, fun _ => rules, id, id, .inr, .refl state _, id, id⟩
    | upSet at_ => exact changed at_ _ ⟨rfl, id, fun _ => rfl, id, .inr, .refl state _, id, id⟩
    | @addressDeleted _ old p _ at_ held forgets =>
      have shrinks : Advances wg state gw old (old.without p) := ⟨rfl, id, id, fun member =>
        Link.mem_without.mpr ⟨Ne.symm rules, member⟩,
          fun member => .inr (Link.mem_without.mp member).2,
        .refl state _, id, id⟩
      exact changed at_ shrinks.name shrinks
    | addressAdded at_ new =>
      exact changed at_ _ ⟨rfl, id, id, fun member => List.mem_cons_of_mem _ member,
        fun member => (List.mem_cons.mp member).imp_left fun same => same.trans rules,
          .refl state _, id, id⟩
    | configured at_ accepted =>
      have config : ConfigFor wg state _ := rules
      cases accepted
      exact changed at_ _ ⟨rfl, id, id, id, .inr, config.improves servable,
        fun _ => config.key.symm, fun _ => config.port⟩
    | halfConfigured at_ part e =>
      have config : ConfigFor wg state _ := rules
      obtain ⟨k, peers⟩ := part.peers
      exact changed at_ _ ⟨rfl, id, id, id, .inr, peers.symm ▸ (config.take k).improves servable,
        fun right => part.key.elim (fun same => same.trans right) fun new =>
          new.trans config.key.symm,
        fun right => part.port.elim (fun same => same.trans right) fun new => new.trans config.port⟩
    | added => exact ⟨l, step_kept step (fun _ _ => id) i l there, .refl l⟩
    | _ => exact ⟨l, here, .refl l⟩

theorem interference (servable : Servable state) :
    Interference (netEnv serverDriver) (SyncCall wg state gw) (Meanwhile wg state gw) where
  refl n := ⟨fun there _ => ⟨_, there, .refl _⟩, fun _ _ _ => id⟩
  trans first second := by
    refine ⟨fun there name => ?_, fun there name only member => ?_⟩
    · obtain ⟨l', here, advances⟩ := first.links there name
      obtain ⟨l'', last, advances'⟩ := second.links here (advances.name.trans name)
      exact ⟨l'', last, advances.trans advances'⟩
    · obtain ⟨l', here, advances⟩ := first.links there name
      refine second.routes here (advances.name.trans name) (fun p among => ?_)
        (first.routes there name only member)
      exact (advances.others among).elim id (only p)
  call := syncCall_meanwhile servable

/-! One link, looked up under its name. -/

/-- The link of this index has the name of the server's, and this property. -/
def On (wg : ServerLink) (holds : Link ServerDevice → Prop) (i : Nat) (n : NetNS ServerDevice) :
    Prop :=
  ∃ l, n.links i = some l ∧ l.name = wg.iface ∧ holds l

/-- A property of the link that no Sync of the state takes away. -/
def Lasts (wg : ServerLink) (state : State) (gw : Addr) (holds : Link ServerDevice → Prop) : Prop :=
  ∀ {l l'}, Advances wg state gw l l' → holds l → holds l'

abbrev Races (wg : ServerLink) (state : State) (gw : Addr) (post : α → NetNS ServerDevice → Prop)
    (program : Program (NetCall Config) (NetAnswer ServerDevice) ε α) (n : NetNS ServerDevice) :
    Prop :=
  program.Amid (netEnv serverDriver) (SyncCall wg state gw) (Meanwhile wg state gw) post n

section Links
variable {holds : Link ServerDevice → Prop}

theorem On.later (on : On wg holds i n) (lasts : Lasts wg state gw holds)
    (moved : Meanwhile wg state gw n n') :
    On wg holds i n' := by
  obtain ⟨l, there, name, known⟩ := on
  obtain ⟨l', here, advances⟩ := moved.links there name
  exact ⟨l', here, advances.name.trans name, lasts advances known⟩

theorem On.imp {holds' : Link ServerDevice → Prop} (on : On wg holds i n)
    (implies : ∀ {l}, holds l → holds' l) :
    On wg holds' i n := by
  obtain ⟨l, there, name, known⟩ := on
  exact ⟨l, there, name, implies known⟩

/-- Two lookups find one link. -/
theorem On.and {holds' : Link ServerDevice → Prop} (first : On wg holds i n)
    (second : On wg holds' j n) :
    i = j ∧ On wg (fun l => holds l ∧ holds' l) i n := by
  obtain ⟨l, there, name, known⟩ := first
  obtain ⟨l', there', name', known'⟩ := second
  obtain rfl := n.named there there' (name.trans name'.symm)
  obtain rfl := Option.some.inj (there.symm.trans there')
  exact ⟨rfl, l, there, name, known, known'⟩

end Links

theorem quiet_syncCall (request : NetCall Config) (silent : quiet request = true) :
    SyncCall wg state gw request := by
  rcases request with - | duration | call
  · trivial
  · trivial
  · cases call <;> simp_all [quiet, SyncCall]

/-! The link. -/

/-- The link has the MTU, if it was found with it. -/
abbrev FoundWith (link : FoundLink) (l : Link ServerDevice) : Prop :=
  link.mtu = serverMTU → l.mtu = serverMTU

theorem lookup_races (answered : netEnv serverDriver n (.system (.linkByName wg.iface))
    (.ok link) n') :
    On wg (FoundWith link) link.index n' := by
  obtain ⟨l, there, name, mtu⟩ := linkByName_ok answered
  exact ⟨l, there, name, fun same => mtu.trans same⟩

theorem foundWith_lasts : Lasts wg state gw (FoundWith link) :=
  fun advances known same => advances.mtu (known same)

theorem findLink_races (servable : Servable state) (implementation : String)
    (n : NetNS ServerDevice) :
    Races wg state gw (fun link => On wg (FoundWith link) link.index)
      (findLink wg.iface serverMTU implementation) n := by
  refine ⟨trivial, fun t answer u moved answered => ?_⟩
  rcases answer with (text | text) | link
  · refine Amid.bind (interference servable)
      (Safe.amid (createLink_quiet _ _ _) quiet_syncCall) fun _ v _ => ?_
    refine ⟨trivial, fun t answer u moved answered => ?_⟩
    cases answer with
    | error e => trivial
    | ok link => exact fun v after => (lookup_races answered).later foundWith_lasts after
  · trivial
  · exact fun v after => (lookup_races answered).later foundWith_lasts after

theorem setMTU_races (on : On wg (FoundWith link) link.index n) :
    Races wg state gw (fun _ => On wg (·.mtu = serverMTU) link.index)
      (setMTU wg.iface serverMTU link) n := by
  have lasts : Lasts wg state gw (·.mtu = serverMTU) := fun advances known => advances.mtu known
  unfold setMTU
  split
  · rename_i same
    exact fun t after => (on.imp fun known => known same).later lasts after
  · refine ⟨rfl, fun t answer u moved answered => ?_⟩
    cases answer with
    | error e => trivial
    | ok =>
      obtain ⟨l, there, name, -⟩ := on.later foundWith_lasts moved
      have sets : On wg (·.mtu = serverMTU) link.index u :=
        ⟨_, linkSetMTU_ok answered there, name, rfl⟩
      exact fun v after => sets.later lasts after

theorem linkSetUp_races (servable : Servable state) {holds : Link ServerDevice → Prop}
    (on : On wg holds i n) (lasts : Lasts wg state gw holds) (text : String) :
    Races wg state gw (fun _ => On wg (fun l => holds l ∧ l.up = true) i)
      (.call (.system (.linkSetUp i)) (orMessage text) : NetProgram Config ServerDevice Unit)
        n := by
  refine ⟨trivial, fun t answer u moved answered => ?_⟩
  cases answer with
  | error e => trivial
  | ok =>
    have rules : SyncCall wg state gw (.system (.linkSetUp i)) := trivial
    have before := on.later lasts moved
    have after := before.later lasts ((interference servable).call rules answered)
    obtain ⟨l, there, name, -⟩ := before
    have up : On wg (·.up = true) i u := ⟨_, linkSetUp_ok answered there, name, rfl⟩
    exact fun v later => (after.and up).2.later
      (fun advances known => ⟨lasts advances known.1, advances.up known.2⟩) later

theorem syncLink_races (servable : Servable state) (implementation : String)
    (n : NetNS ServerDevice) :
    Races wg state gw (fun _ n => ∃ i, On wg (fun l => l.mtu = serverMTU ∧ l.up = true) i n)
      (syncLink wg.iface serverMTU implementation) n := by
  refine Amid.bind (interference servable)
    (findLink_races servable implementation n) fun link t found => ?_
  refine Amid.bind (interference servable) (setMTU_races found) fun _ u sets => ?_
  exact Amid.weaken (linkSetUp_races servable sets (fun advances known => advances.mtu known) _)
    fun _ _ on => ⟨_, on⟩

/-! The address. -/

/-- Besides the server's address, the link has some of these; and that one, if it need not
be added. -/
structure Left (gw : Addr) (ps : List Prefix) (add : Bool) (l : Link ServerDevice) : Prop where
  others : p ∈ l.addresses → p = .single gw ∨ p ∈ ps
  there : add = false → .single gw ∈ l.addresses

theorem left_lasts : Lasts wg state gw (Left gw ps add) := fun advances left =>
  ⟨fun member => (advances.others member).elim .inl left.others,
    fun there => advances.address (left.there there)⟩

theorem removeAddresses_races (apart : ∀ p ∈ ps, p ≠ Prefix.single gw)
    (on : On wg (Left gw ps add) i n) :
    Races wg state gw (fun _ => On wg (Left gw [] add) i)
      (removeAddresses i ps : NetProgram _ _ _) n := by
  induction ps generalizing n with
  | nil => exact fun t after => on.later left_lasts after
  | cons p rest ih =>
    obtain ⟨first, later⟩ := List.forall_mem_cons.mp apart
    refine ⟨first, fun t answer u moved answered => ?_⟩
    cases answer with
    | error e => trivial
    | ok =>
      obtain ⟨l, there, name, left⟩ := on.later left_lasts moved
      obtain ⟨here, -⟩ := addrDel_ok answered there
      refine ih later ⟨_, here, name, ?_,
        fun add => Link.mem_without.mpr ⟨first.symm, left.there add⟩⟩
      intro q member
      obtain ⟨other, member⟩ := Link.mem_without.mp member
      exact (left.others member).imp_right fun among => (List.mem_cons.mp among).resolve_left other

theorem addAddress_races (on : On wg (Left gw [] add) i n) :
    Races wg state gw (fun _ => On wg (Left gw [] false) i)
      (addAddress i (.single gw) add : NetProgram _ _ _) n := by
  unfold addAddress
  split
  · refine ⟨rfl, fun t answer u moved answered => ?_⟩
    cases answer with
    | error e => trivial
    | ok =>
      obtain ⟨l, there, name, left⟩ := on.later left_lasts moved
      obtain ⟨l', here, new, name', -⟩ := addrAdd_ok answered there
      have added : On wg (Left gw [] false) i u := by
        refine ⟨l', here, name'.trans name, ?_, fun _ => new ▸ List.mem_cons_self⟩
        intro p member
        exact (List.mem_cons.mp (new ▸ member)).elim .inl left.others
      exact fun v after => added.later left_lasts after
  · rename_i present
    obtain rfl : add = false := Bool.eq_false_of_not_eq_true present
    exact fun t after => on.later left_lasts after

theorem syncAddress_races (servable : Servable state) (n : NetNS ServerDevice) :
    Races wg state gw (fun _ n => ∃ i, On wg (Left gw [] false) i n)
      (syncAddress wg.iface (.single gw) : NetProgram _ _ _) n := by
  refine ⟨trivial, fun t answer u moved answered => ?_⟩
  cases answer with
  | error e => trivial
  | ok link =>
    refine ⟨trivial, fun v answer w moved' listed => ?_⟩
    cases answer with
    | error e => trivial
    | ok addresses =>
      obtain ⟨l, there, name, -⟩ := (lookup_races answered).later foundWith_lasts moved'
      obtain ⟨here, order⟩ := addrList_ok listed there
      have left : On wg (Left gw (addressChanges addresses (.single gw)).1
          (addressChanges addresses (.single gw)).2) link.index w := by
        refine ⟨l, here, name, fun {p} member => ?_, fun add => ?_⟩
        · have inside := order.mem_iff.mpr member
          by_cases same : p = .single gw
          · exact .inl same
          · exact .inr (List.mem_filter.mpr ⟨inside, by simpa using same⟩)
        · simpa [addressChanges, order.mem_iff] using add
      have apart : ∀ p ∈ (addressChanges addresses (.single gw)).1, p ≠ Prefix.single gw :=
          fun p member => by
        simpa using (List.mem_filter.mp member).2
      refine Amid.bind (interference servable)
        (removeAddresses_races apart left) fun _ x removed => ?_
      refine Amid.bind (interference servable) (addAddress_races removed) fun _ y added => ?_
      exact Amid.weaken (linkSetUp_races servable added left_lasts _) fun _ _ on =>
        ⟨_, on.imp And.left⟩

/-! The route. -/

def HasRoute (i : Nat) (n : NetNS ServerDevice) : Prop := ∃ r ∈ n.routes, r.linkIndex = i

/-- The server's address is the only one on the link, which has a route. -/
def Routable (wg : ServerLink) (gw : Addr) (i : Nat) (n : NetNS ServerDevice) : Prop :=
  On wg (Left gw [] false) i n ∧ HasRoute i n

theorem Routable.later (routable : Routable wg gw i n) (moved : Meanwhile wg state gw n n') :
    Routable wg gw i n' := by
  obtain ⟨on, r, member, rfl⟩ := routable
  refine ⟨on.later left_lasts moved, r, ?_, rfl⟩
  obtain ⟨l, there, name, left⟩ := on
  exact moved.routes there name
    (fun p among => (left.others among).resolve_right List.not_mem_nil) member

theorem chooseRoute_races (servable : Servable state) (on : On wg (Left gw [] false) i n)
    (listed : ∀ r ∈ routes, r.linkIndex = i → HasRoute i n) (cidr : String) :
    Races wg state gw (fun _ => Routable wg gw i)
      (chooseRoute cidr gw i routes : NetProgram _ _ _) n := by
  unfold chooseRoute
  split
  · rename_i some
    obtain ⟨r, member, at_⟩ := List.any_eq_true.mp some
    have routable : Routable wg gw i n := ⟨on, listed r member (of_decide_eq_true at_)⟩
    exact fun t after => routable.later after
  · split
    · trivial
    · rename_i dst _
      refine ⟨trivial, fun t answer u moved answered => ?_⟩
      cases answer with
      | error e => trivial
      | ok =>
        have rules : SyncCall wg state gw (.system (.routeAdd ⟨i, dst, gw⟩)) := trivial
        have still := (on.later left_lasts moved).later left_lasts
          ((interference servable).call rules answered)
        have added := routeAdd_ok answered
        have routable : Routable wg gw i u :=
          ⟨still, _, added ▸ List.mem_append_right _ (List.mem_singleton_self _), rfl⟩
        exact fun v after => routable.later after

theorem syncRoute_races (servable : Servable state) (on : On wg (Left gw [] false) i n)
    (cidr : String) :
    Races wg state gw (fun _ => Routable wg gw i)
      (syncRoute wg.iface cidr gw : NetProgram _ _ _) n := by
  refine ⟨trivial, fun t answer u moved answered => ?_⟩
  cases answer with
  | error e => trivial
  | ok link =>
    have looks : SyncCall wg state gw (.system (.linkByName wg.iface)) := trivial
    have on := (on.later left_lasts moved).later left_lasts
      ((interference servable).call looks answered)
    obtain ⟨rfl, -⟩ := on.and (lookup_races answered)
    refine ⟨trivial, fun v answer w moved' listed => ?_⟩
    cases answer with
    | error e => trivial
    | ok routes =>
      have lists : SyncCall wg state gw (.system (.routeList link.index)) := trivial
      have on := (on.later left_lasts moved').later left_lasts
        ((interference servable).call lists listed)
      obtain ⟨same, order⟩ := routeList_ok listed
      have has : ∀ r ∈ routes, r.linkIndex = link.index → HasRoute link.index w :=
          fun r member at_ =>
        ⟨r, same ▸ (List.mem_filter.mp (order.mem_iff.mp member)).1, at_⟩
      exact chooseRoute_races servable on has cidr

end TunnelOperator.Agent
