import TunnelOperator.Sidecar.Tunnel

/-! What desiredTunnel accepts. -/
namespace TunnelOperator.Sidecar
open Netip

theorem parseLocalCIDR_proper {peer : WireguardPeer} (parsed : parseLocalCIDR peer c = .ok p) :
    p.bits ≠ 0 := by
  unfold parseLocalCIDR at parsed
  dsimp only at parsed
  split at parsed
  · contradiction
  · split at parsed
    · contradiction
    · rename_i proper
      obtain rfl := Except.ok.inj parsed
      exact proper

theorem parseLocalCIDRs_proper {peer : WireguardPeer} {cs : List String}
    (parsed : cs.mapM (parseLocalCIDR peer) = .ok ps) : ∀ p ∈ ps, p.bits ≠ 0 := by
  induction cs generalizing ps with
  | nil =>
    cases parsed
    simp
  | cons c rest ih =>
    rw [List.mapM_cons] at parsed
    cases first : parseLocalCIDR peer c with
    | error e =>
      rw [first] at parsed
      cases parsed
    | ok p =>
      rw [first] at parsed
      cases others : rest.mapM (parseLocalCIDR peer) with
      | error e =>
        rw [others] at parsed
        cases parsed
      | ok qs =>
        rw [others] at parsed
        cases parsed
        exact List.forall_mem_cons.mpr ⟨parseLocalCIDR_proper first, ih others⟩

theorem parseAddrPort_fits (parsed : parseAddrPort text = .ok endpoint) :
    endpoint.port < 2 ^ 16 := by
  unfold parseAddrPort at parsed
  cases parts : splitAddrPort text with
  | error e =>
    rw [parts] at parsed
    cases parsed
  | ok found =>
    obtain ⟨ipText, portText, ipv6⟩ := found
    rw [parts] at parsed
    simp only [bind, Except.bind] at parsed
    split at parsed
    · contradiction
    · split at parsed
      · contradiction
      · rename_i small
        split at parsed
        · contradiction
        · split at parsed
          · contradiction
          · split at parsed
            · contradiction
            · obtain rfl := Except.ok.inj parsed
              exact Nat.lt_of_not_le small

/-- What a tunnel takes from the status of its WireguardPeer. -/
structure ReadFrom (peer : WireguardPeer) (t : Tunnel) : Prop where
  address : ∃ value, parseAddr peer.status.address = .ok (.v4 value) ∧
    t.address = .single (.v4 value)
  endpoint : parseAddrPort peer.status.endpoint = .ok t.endpoint
  serverKey : Wgtypes.parseKey peer.status.serverPublicKey = some t.serverKey
  proper : ∀ p ∈ t.localCIDRs, p.bits ≠ 0
  fits : t.endpoint.port < 2 ^ 16

theorem desiredTunnel_read (reads : desiredTunnel peer = .ok t) : ReadFrom peer t := by
  unfold desiredTunnel at reads
  repeat' split at reads
  all_goals try contradiction
  rename_i value address _ endpoint parsed _ serverKey keyed
  cases cidrs : parseLocalCIDRs peer with
  | error e =>
    rw [cidrs] at reads
    cases reads
  | ok ps =>
    rw [cidrs] at reads
    cases reads
    exact ⟨⟨value, address, rfl⟩, parsed, keyed, parseLocalCIDRs_proper cidrs,
      parseAddrPort_fits parsed⟩

end TunnelOperator.Sidecar
