import TunnelOperator.Agent.LinkCalls

/-! A link that was just made can be synced: no call of the programs need fail on it. -/
namespace TunnelOperator.Agent
open Net Netip Program

variable {Cfg Dev : Type} {n : NetNS Dev} {l : Link Dev} (driver : Driver Cfg Dev)

theorem change_there {there : n.links i = some old} {same : l.name = old.name} :
    (n.change there l same).links i = some l := (NetNS.change_links ..).trans (if_pos rfl)

theorem syncLink_can (there : n.links i = some l) (implementation : String) :
    ∃ events n', Trace (netEnv driver) n (syncLink l.name l.mtu implementation) events
      (.done ()) n' ∧
      n'.links i = some { l with up := true } ∧ n'.routes = n.routes := by
  have sets : (setMTU l.name l.mtu ⟨i, l.mtu⟩ : NetProgram Cfg Dev Unit) = .done () := if_pos rfl
  have lifts : Trace (netEnv driver) n (setMTU l.name l.mtu ⟨i, l.mtu⟩ >>= fun _ =>
      .call (.system (.linkSetUp i))
        (orMessage ("bringing link " ++ Strconv.quote l.name ++ " up failed: ")))
      [⟨.system (.linkSetUp i), .ok ()⟩] (.done ()) (n.change there { l with up := true } rfl) := by
    rw [sets]
    exact .call ⟨_, .refl, .upSet there⟩ .done
  exact ⟨_, _, .call ⟨_, .refl, .found there⟩ lifts, change_there, rfl⟩

theorem syncAddress_can (there : n.links i = some l) (bare : l.addresses = []) (want : Prefix) :
    ∃ events n' l', Trace (netEnv driver) n (syncAddress l.name want) events (.done ()) n' ∧
      n'.links i = some l' ∧ l'.name = l.name ∧ l'.device = l.device ∧ n'.routes = n.routes ∧
        ∀ event ∈ events, reroutes event.1 = false := by
  have new : want ∉ l.addresses := by simp [bare]
  have order : ([] : List Prefix).Perm l.addresses := by simp [bare]
  exact ⟨_, _, _, .call ⟨_, .refl, .found there⟩ (.call ⟨_, .refl, .addresses there order⟩
    (.call ⟨_, .refl, .addressAdded there new⟩ (.call ⟨_, .refl, .upSet change_there⟩ .done))),
      change_there, rfl, rfl, rfl,
    by simp [reroutes]⟩

theorem syncRoute_can (there : n.links i = some l) (routeless : n.routes = [])
    (read : parseCIDR cidr = .ok dst) (gw : Addr) :
    ∃ events n', Trace (netEnv driver) n (syncRoute l.name cidr gw) events (.done ()) n' ∧
      n'.links i = some l := by
  have order : ([] : List LinkRoute).Perm (n.routes.filter (·.linkIndex = i)) := by simp [routeless]
  have free : ∀ r ∈ n.routes, r.dst ≠ (LinkRoute.mk i dst gw).dst := by simp [routeless]
  have adds : Trace (netEnv driver) n (chooseRoute cidr gw i [])
      [⟨.system (.routeAdd ⟨i, dst, gw⟩), .ok ()⟩] (.done ())
      { n with routes := n.routes ++ [⟨i, dst, gw⟩] } := by
    simp only [chooseRoute, read]
    exact .call ⟨_, .refl, .routeAdded free⟩ .done
  exact ⟨_, _, .call ⟨_, .refl, .found there⟩ (.call ⟨_, .refl, .routes order⟩ adds), there⟩

end TunnelOperator.Agent
