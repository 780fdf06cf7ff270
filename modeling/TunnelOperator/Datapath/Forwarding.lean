import TunnelOperator.Datapath.Recorded

/-! The forwarding rules of the server over every history: calls of Ensure one after the
other, flushes and policy changes by others between any two commands, and commands that
fail. -/
namespace TunnelOperator.Datapath
open Netip Program

section Success
variable {s : Server}

/-- A netlink call may get any answer and does not concern iptables. -/
theorem routing_step (s : Server) (request : RoutingCall) (answer : RoutingAnswer request) :
    serverEnv Eq s (.routing request) answer s := ⟨s, rfl, rfl⟩

theorem exists_attemptRouting (p : Prefix) (s : Server) :
    ∃ events, Trace (serverEnv Eq) s (attemptRouting p) events (.done (.ok ())) s :=
  ⟨_, .call (routing_step s (.linkByName wgInterface) (.ok 1))
    (.call (routing_step s (.routeReplace peerTable (peerRoute 1 p)) (.ok ()))
    (.call (routing_step s (.routeReplace blackholeTable blackholeRoute) (.ok ()))
    (.call (routing_step s .ruleList (.ok []))
    (.call (routing_step s (.ruleAdd (peerRule p)) (.ok ()))
    (.call (routing_step s .ruleList (.ok []))
    (.call (routing_step s (.ruleAdd blackholeRule) (.ok ())) .done))))))⟩

theorem exists_assertRules (rs : List IptablesRule) (s : Server) :
    ∃ events t, Trace (serverEnv Eq) s (assertRules rs) events (.done none) t := by
  induction rs generalizing s with
  | nil => exact ⟨[], s, .done⟩
  | cons r rest ih =>
    by_cases has : s.Has r
    · obtain ⟨events, t, run⟩ := ih s
      exact ⟨_, t, .call ⟨s, rfl, .present r has⟩ run⟩
    · obtain ⟨events, t, run⟩ := ih (s.append r.table r.chain r.spec)
      exact ⟨_, t, .call ⟨s, rfl, .absent (e := "exit status 1") r has⟩
        (.call ⟨s, rfl, .appended r⟩ run)⟩

/-- When no command fails, Ensure returns nil. -/
theorem exists_ensure (read : parsePrefix peerCIDR = .ok p) (s : Server) :
    ∃ events t, Trace (serverEnv Eq) s (ensure peerCIDR) events (.done none) t ∧ t.err = none := by
  obtain ⟨first, routed⟩ := exists_attemptRouting p.masked s
  obtain ⟨second, t, asserted⟩ := exists_assertRules (rules p.masked) { s with policy := "DROP" }
  have iptables : Trace (serverEnv Eq) s (ensureIptables p.masked)
      (⟨.iptables policyArgs, none⟩ :: second) (.done none) t := .call ⟨s, rfl, .policySet⟩ asserted
  have recorded : Trace (serverEnv Eq) t (record none) [⟨.record none, ()⟩] (.done none)
      { t with err := none } :=
    .call ⟨t, rfl, rfl⟩ .done
  simp only [ensure, read]
  exact ⟨_, _, routed.bind (iptables.bind recorded), rfl⟩

end Success

/-- What holds of a run, finished or stopped anywhere, of the calls Ensure(cidrs[0]),
Ensure(cidrs[1]) and so on, from `s` to `t`. -/
structure ForwardingAsserted (s : Server) (cidrs : List String)
    (events : List (Event Command CommandReply))
    (outcome : Outcome Empty (List GoError)) (t : Server) : Prop where
  gentle : Trace (gentleEnv Interference) s (ensureEach cidrs) events outcome t
  copies : ∀ r : IptablesRule, t.copies r ≤ max (s.copies r) 1
  reported : ∃ results, Reported Interference s cidrs events results t ∧
    (outcome = .cut ∨ outcome = .done results)

theorem forwarding_asserted :
    (∀ s cidrs events outcome t,
      Trace (serverEnv Interference) s (ensureEach cidrs) events outcome t →
      ForwardingAsserted s cidrs events outcome t) ∧
    (∀ s peerCIDR events result t,
      Trace (serverEnv Eq) s (ensure peerCIDR) events (.done result) t → t.err = none →
      ∃ p, parsePrefix peerCIDR = .ok p ∧ t.policy = "DROP" ∧ ∀ r ∈ rules p.masked, t.Has r) ∧
    ∀ s peerCIDR p events result t, parsePrefix peerCIDR = .ok p →
      Trace (serverEnv Interference) s (ensure peerCIDR) events (.done result) t →
        ∃ answer, (⟨.iptables policyArgs, answer⟩ : Event Command CommandReply) ∈ events := by
  refine ⟨?_, ?_, ?_⟩
  · intro s cidrs events outcome t run
    have gentle := ensureEach_gentle run
    exact ⟨gentle, run_noCopies gentle, ensureEach_reported Interference.err run⟩
  · intro s peerCIDR events result t run clean
    exact ensure_has run clean
  · intro s peerCIDR p events result t read run
    exact ensure_policy read run

/-- A server with empty tables, on which nothing fails. -/
theorem fresh_server_forwards : ∃ events t,
    ForwardingAsserted (.new "ACCEPT" fun _ _ => []) ["10.8.0.0/24"] events (.done [none]) t ∧
    (∃ p, parsePrefix "10.8.0.0/24" = .ok p ∧ t.policy = "DROP" ∧ ∀ r ∈ rules p.masked, t.Has r) ∧
    ∃ answer, (⟨.iptables policyArgs, answer⟩ : Event Command CommandReply) ∈ events := by
  have read : parsePrefix "10.8.0.0/24" = .ok ⟨.v4 0x0a080000, 24, by decide⟩ := by decide +kernel
  obtain ⟨events, t, run, clean⟩ := exists_ensure read (.new "ACCEPT" fun _ _ => [])
  have disturbed : Trace (serverEnv Interference) (.new "ACCEPT" fun _ _ => [])
      (ensure "10.8.0.0/24") events
      (.done none) t := run.mono fun ⟨m, same, performed⟩ => ⟨m, same ▸ .refl, performed⟩
  have whole : Trace (serverEnv Interference) (.new "ACCEPT" fun _ _ => [])
      (ensureEach ["10.8.0.0/24"]) (events ++ []) (.done [none]) t := disturbed.bind .done
  rw [List.append_nil] at whole
  exact ⟨events, t, forwarding_asserted.1 _ _ _ _ _ whole,
    forwarding_asserted.2.1 _ _ _ _ _ run clean, forwarding_asserted.2.2 _ _ _ _ _ _ read disturbed⟩

end TunnelOperator.Datapath
