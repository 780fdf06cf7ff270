import TunnelOperator.Agent.Link

/-! What each call does to the links, the routes and the clock. -/
namespace TunnelOperator.Agent
open Net Netip Program

variable {Cfg Dev : Type} {driver : Driver Cfg Dev} {n n' m : NetNS Dev} {l : Link Dev}

theorem NetNS.change_links (there : n.links i = some old) (same : l.name = old.name) (j : Nat) :
    (n.change there l same).links j = if j = i then some l else n.links j :=
      Function.update_apply ..

/-- A change of one link, as it looks for any link. -/
theorem NetNS.change_relates (relates : Link Dev → Link Dev → Prop) {old new : Link Dev}
    (here : n.links i = some l) (there : n.links j = some old) (same : new.name = old.name)
    (stays : relates l l) (changes : j = i → relates old new) :
    ∃ l', (n.change there new same).links i = some l' ∧ relates l l' := by
  rw [NetNS.change_links]
  split
  · rename_i equal
    subst equal
    obtain rfl := Option.some.inj (there.symm.trans here)
    exact ⟨new, rfl, changes rfl⟩
  · exact ⟨l, here, stays⟩

theorem Link.mem_without : q ∈ (l.without p).addresses ↔ q ≠ p ∧ q ∈ l.addresses :=
  l.distinct.mem_erase_iff

/-! One call. -/

theorem appeared_links (path : Relation.ReflTransGen (Appears driver) n m)
    (there : n.links i = some l) :
    m.links i = some l := by
  induction path with
  | refl => exact there
  | tail _ step ih =>
    cases step with
    | @link iface n j asked absent free mtu =>
      have apart : i ≠ j := by
        rintro rfl
        rw [free] at ih
        contradiction
      exact (Function.update_of_ne apart ..).trans ih

theorem appeared_rest (path : Relation.ReflTransGen (Appears driver) n m) :
    m.routes = n.routes ∧ m.clock = n.clock := by
  induction path with
  | refl => exact ⟨rfl, rfl⟩
  | tail _ step ih =>
    cases step with
    | link => exact ih

/-- The call is about the link of this index and name. -/
def Targets (i : Nat) (name : String) : NetCall Cfg → Prop
  | .system (.linkSetMTU j _) | .system (.linkSetUp j) | .system (.addrDel j _)
    | .system (.addrAdd j _) => j = i
  | .system (.configureDevice iface _) => iface = name
  | _ => False

/-- A link stays, under its name, and as it is when the call is not about it. -/
theorem step_links (step : netEnv driver n request answer n') (there : n.links i = some l) :
    ∃ l', n'.links i = some l' ∧ l'.name = l.name ∧ (¬ Targets i l.name request → l' = l) := by
  obtain ⟨m, path, answered⟩ := step
  have here := appeared_links path there
  have changed : ∀ {j : Nat} {old new : Link Dev} (at_ : m.links j = some old)
      (same : new.name = old.name), (j = i → Targets i l.name request) →
      ∃ l', (m.change at_ new same).links i = some l' ∧ l'.name = l.name ∧
        (¬ Targets i l.name request → l' = l) := fun at_ same target =>
    NetNS.change_relates (fun a b => b.name = a.name ∧ (¬ Targets i l.name request → b = a))
      here at_ same ⟨rfl, fun _ => rfl⟩
      fun equal => ⟨same, fun other => absurd (target equal) other⟩
  cases answered with
  | mtuSet at_ => exact changed at_ _ id
  | upSet at_ => exact changed at_ _ id
  | @addressDeleted _ old p _ at_ held forgets =>
    exact changed at_ (show (old.without p).name = old.name from rfl) id
  | addressAdded at_ new => exact changed at_ _ id
  | configured at_ accepted =>
    refine changed at_ _ fun same => ?_
    subst same
    exact congrArg Link.name (Option.some.inj (at_.symm.trans here))
  | halfConfigured at_ part e =>
    refine changed at_ _ fun same => ?_
    subst same
    exact congrArg Link.name (Option.some.inj (at_.symm.trans here))
  | @added iface j mtu absent free =>
    have apart : i ≠ j := by
      rintro rfl
      rw [free] at here
      contradiction
    exact ⟨l, (Function.update_of_ne apart ..).trans here, rfl, fun _ => rfl⟩
  | _ => exact ⟨l, here, rfl, fun _ => rfl⟩

/-- Every link is still there, as it was. -/
def Kept (n n' : NetNS Dev) : Prop := ∀ i l, n.links i = some l → n'.links i = some l

theorem step_kept (step : netEnv driver n request answer n')
    (aimless : ∀ i name, ¬ Targets i name request) :
    Kept n n' := by
  intro i l there
  obtain ⟨l', here, -, same⟩ := step_links step there
  rw [here, same (aimless i l.name)]

theorem Kept.trans {n'' : NetNS Dev} (first : Kept n n') (second : Kept n' n'') : Kept n n'' :=
  fun i l there => second i l (first i l there)

/-- The calls that may change the routes. -/
def reroutes : NetCall Cfg → Bool
  | .system (.routeAdd _) | .system (.addrDel ..) => true
  | _ => false

theorem step_rest (step : netEnv driver n request answer n') : n.clock ≤ n'.clock ∧
    (reroutes request = false → n'.routes = n.routes) := by
  obtain ⟨m, path, answered⟩ := step
  obtain ⟨routes, clock⟩ := appeared_rest path
  rw [← routes, ← clock]
  cases answered with
  | time later => exact ⟨later, fun _ => rfl⟩
  | slept later => exact ⟨Nat.le_of_add_right_le later, fun _ => rfl⟩
  | routeAdded | addressDeleted => exact ⟨Nat.le_refl _, fun rest => by contradiction⟩
  | _ => exact ⟨Nat.le_refl _, fun _ => rfl⟩

/-! Whole runs. -/

section Runs
variable {ε α : Type} {program : Program (NetCall Cfg) (NetAnswer Dev) ε α} {outcome : Outcome ε α}

theorem run_links (run : Trace (netEnv driver) n program events outcome n')
    (there : n.links i = some l) :
    ∃ l', n'.links i = some l' ∧ l'.name = l.name ∧
      ((∀ event ∈ events, ¬ Targets i l.name event.1) → l' = l) := by
  induction run generalizing l with
  | done | fail | cut => exact ⟨l, there, rfl, fun _ => rfl⟩
  | call step rest ih =>
    obtain ⟨m, here, name, same⟩ := step_links step there
    obtain ⟨l', last, name', same'⟩ := ih here
    refine ⟨l', last, name'.trans name, fun others => ?_⟩
    obtain ⟨first, later⟩ := List.forall_mem_cons.mp others
    obtain rfl := same first
    exact same' later

theorem run_routes (run : Trace (netEnv driver) n program events outcome n')
    (none : ∀ event ∈ events, reroutes event.1 = false) : n'.routes = n.routes := by
  induction run with
  | done | fail | cut => rfl
  | call step rest ih =>
    obtain ⟨first, later⟩ := List.forall_mem_cons.mp none
    exact (ih later).trans ((step_rest step).2 first)

end Runs

/-! The calls, by what their answers say. -/

theorem linkByName_ok (step : netEnv driver n (.system (.linkByName iface)) (.ok link) n') :
    ∃ l, n'.links link.index = some l ∧ l.name = iface ∧ l.mtu = link.mtu := by
  obtain ⟨m, path, answered⟩ := step
  cases answered with
  | found there => exact ⟨_, there, rfl, rfl⟩

theorem linkSetMTU_ok (step : netEnv driver n (.system (.linkSetMTU i mtu)) (.ok ()) n')
    (there : n.links i = some l) :
    n'.links i = some { l with mtu := mtu } := by
  obtain ⟨m, path, answered⟩ := step
  cases answered with
  | mtuSet at_ =>
    obtain rfl := Option.some.inj (at_.symm.trans (appeared_links path there))
    rw [NetNS.change_links, if_pos rfl]

theorem linkSetUp_ok (step : netEnv driver n (.system (.linkSetUp i)) (.ok ()) n')
    (there : n.links i = some l) :
    n'.links i = some { l with up := true } := by
  obtain ⟨m, path, answered⟩ := step
  cases answered with
  | upSet at_ =>
    obtain rfl := Option.some.inj (at_.symm.trans (appeared_links path there))
    rw [NetNS.change_links, if_pos rfl]

theorem addrList_ok (step : netEnv driver n (.system (.addrList i)) (.ok listed) n')
    (there : n.links i = some l) :
    n'.links i = some l ∧ listed.Perm l.addresses := by
  obtain ⟨m, path, answered⟩ := step
  have here := appeared_links path there
  cases answered with
  | addresses at_ order =>
    obtain rfl := Option.some.inj (at_.symm.trans here)
    exact ⟨here, order⟩

theorem addrDel_ok (step : netEnv driver n (.system (.addrDel i p)) (.ok ()) n')
    (there : n.links i = some l) :
    n'.links i = some (l.without p) ∧
      Forgets LinkRoute.linkIndex i (l.addresses.erase p = []) n.routes n'.routes := by
  obtain ⟨m, path, answered⟩ := step
  have routes := (appeared_rest path).1
  cases answered with
  | addressDeleted at_ held forgets =>
    obtain rfl := Option.some.inj (at_.symm.trans (appeared_links path there))
    refine ⟨?_, routes ▸ forgets⟩
    exact (NetNS.change_links at_ (show (Link.without _ p).name = _ from rfl) i).trans (if_pos rfl)

theorem addrAdd_ok (step : netEnv driver n (.system (.addrAdd i p)) (.ok ()) n')
    (there : n.links i = some l) :
    ∃ l', n'.links i = some l' ∧ l'.addresses = p :: l.addresses ∧ l'.name = l.name ∧
      l'.mtu = l.mtu ∧
      l'.device = l.device := by
  obtain ⟨m, path, answered⟩ := step
  cases answered with
  | addressAdded at_ new =>
    obtain rfl := Option.some.inj (at_.symm.trans (appeared_links path there))
    exact ⟨_, (NetNS.change_links ..).trans (if_pos rfl), rfl, rfl, rfl, rfl⟩

theorem routeList_ok (step : netEnv driver n (.system (.routeList i)) (.ok listed) n') :
    n'.routes = n.routes ∧ listed.Perm (n.routes.filter (·.linkIndex = i)) := by
  obtain ⟨m, path, answered⟩ := step
  obtain ⟨routes, -⟩ := appeared_rest path
  cases answered with
  | routes order => exact ⟨routes, routes ▸ order⟩

theorem routeAdd_ok (step : netEnv driver n (.system (.routeAdd r)) (.ok ()) n') :
    n'.routes = n.routes ++ [r] := by
  obtain ⟨m, path, answered⟩ := step
  obtain ⟨routes, -⟩ := appeared_rest path
  cases answered with
  | routeAdded free => exact congrArg (· ++ [r]) routes

theorem device_ok (step : netEnv driver n (.system (.device iface)) (.ok dev) n')
    (there : n.links i = some l) (name : l.name = iface) :
    dev = l.device ∧ n'.links i = some l := by
  obtain ⟨m, path, answered⟩ := step
  have here := appeared_links path there
  cases answered with
  | device at_ =>
    obtain rfl := n'.named at_ here name.symm
    obtain rfl := Option.some.inj (at_.symm.trans here)
    exact ⟨rfl, here⟩

theorem configureDevice_ok
    (step : netEnv driver n (.system (.configureDevice iface cfg)) (.ok ()) n')
    (there : n.links i = some l)
    (name : l.name = iface) : ∃ dev, driver.configures l.device cfg dev ∧
      n'.links i = some { l with device := dev } := by
  obtain ⟨m, path, answered⟩ := step
  have here := appeared_links path there
  cases answered with
  | configured at_ accepted =>
    obtain rfl := m.named at_ here name.symm
    obtain rfl := Option.some.inj (at_.symm.trans here)
    exact ⟨_, accepted, (NetNS.change_links ..).trans (if_pos rfl)⟩

end TunnelOperator.Agent
