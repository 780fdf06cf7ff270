import TunnelOperator.Agent.StateFile
import TunnelOperator.Controller.PeersProofs

/-! The addresses that the parts of the operator derive from peerCIDR, each with its own
code: the server's address on wg0 (internal/wireguard), the source of the peer-path probe
(internal/datapath), the two reserved addresses (internal/ipam) and the addresses peers may
hold (internal/controller). -/
namespace TunnelOperator.Agent
open Netip Net Controller

/-- agent.PeerCIDR -/
def peerCIDR (state : State) : String :=
  if state.server.spec.peerCIDR = "" then Ipam.defaultPeerCIDR4 else state.server.spec.peerCIDR

/-- The server's address as a network of its own, and as an address. -/
def gatewayIPFromPrefix (p : Prefix) : Except String (IPNet × Addr) :=
  let p := p.masked
  if !p.addr.is4 then .error ("unsupported address family for prefix " ++ Strconv.quote p.string)
  else match p.addr.next with
    | some (.v4 gw) => .ok (.single (.v4 gw), .v4 gw)
    | _ => .error ("failed to derive IPv4 gateway for prefix " ++ Strconv.quote p.string)

/-- The second host. Past the last address of its family Go gets an address that no prefix
contains. -/
def peerProbeSource (p : Prefix) : Except String Addr :=
  match p.masked.addr.next.bind Addr.next with
  | some src =>
    if p.contains src then .ok src
    else .error ("peerCIDR " ++ p.string ++ " has no second host for the peer-path probe")
  | none => .error ("peerCIDR " ++ p.string ++ " has no second host for the peer-path probe")

section Range
variable (range : Ipam.PeerCIDR)

/-- The first hosts of the range, its size being at least four. -/
theorem contains_host (small : i < 4) :
    range.net.contains (.v4 (range.base + BitVec.ofNat 32 i)) = true := by
  rw [← Ipam.mem_addresses]
  refine List.mem_map.mpr ⟨i, ?_, rfl⟩
  have room : 2 ^ 2 ≤ 2 ^ (32 - range.net.bits) :=
    Nat.pow_le_pow_right (by decide) (by have := range.roomy; simp only [Ipam.PeerCIDR.net]; omega)
  rw [List.mem_range'_1]
  omega

theorem base_lt : range.base.toNat + 3 < 2 ^ 32 := by
  obtain ⟨q, base, room⟩ := range.base_multiple
  have size : 2 ^ 2 ≤ 2 ^ (32 - range.bits) :=
    Nat.pow_le_pow_right (by decide) (by have := range.roomy; omega)
  omega

theorem next_network : (Addr.v4 range.base).next = some (.v4 (range.base + 1)) := by
  rw [Addr.next, if_neg range.base_add_one_ne_zero]

theorem next_gateway : (Addr.v4 (range.base + 1)).next = some (.v4 (range.base + 2)) := by
  have below := base_lt range
  have last : range.base + 1 + 1 ≠ 0 := by bv_omega
  rw [Addr.next, if_neg last]
  congr 2
  bv_omega

theorem probe_allocatable : range.Allocatable (range.base + 2) := by
  have below := base_lt range
  exact ⟨contains_host range (show 2 < 4 by decide), by bv_omega, by bv_omega⟩

/-- Every address of the range is usable but the two that are reserved. -/
theorem unusable_iff {cidr : String} (reads : Ipam.Reads cidr range)
    (inside : range.net.contains a = true) :
    addressUsable a.string cidr = false ↔ a = .v4 range.base ∨ a = .v4 (range.base + 1) := by
  obtain ⟨value, rfl, -⟩ := (Prefix.contains_v4 (show range.net.addr = .v4 range.base from rfl)).mp
    inside
  rw [← Bool.not_eq_true, addressUsable_iff reads, Addr.v4.injEq, Addr.v4.injEq]
  constructor
  · intro unheld
    by_contra apart
    rw [not_or] at apart
    exact unheld ⟨value, rfl, inside, apart⟩
  · rintro reserved ⟨other, text, -, network, first⟩
    obtain rfl := string_v4_injective text
    exact reserved.elim network first

end Range

/-- What the parts of the operator take from one peerCIDR. -/
structure Agreed (cidr : String) (p : Prefix) (network gw src : Addr) : Prop where
  parsed : parsePrefix cidr = .ok p
  masked : p.masked.addr = network
  /-- No step to the next address leaves the prefix. -/
  first : network.next = some gw ∧ p.contains gw = true
  second : gw.next = some src ∧ p.contains src = true
  server : gatewayIPFromPrefix p = .ok (.single gw, gw)
  reserved : Ipam.deriveReservedIPs cidr = [network.string, gw.string]
  excluded : ∀ a, p.contains a = true → (addressUsable a.string cidr = false ↔ a = network ∨ a = gw)
  probe : peerProbeSource p = .ok src
  usable : addressUsable src.string cidr = true
  apart : src ≠ network ∧ src ≠ gw

/-- Every accepted peerCIDR means the same addresses to all of them, and the agent reads the
one the controller has checked. -/
theorem derivations_agree (cidr : String) (valid : validatePeerCIDR cidr = .ok ()) :
    (∃ p network gw src, Agreed cidr p network gw src) ∧
    ∀ (wg : Wireguard) (privateKey : String) (admitted : List WireguardPeer),
      peerCIDR (desiredState wg privateKey admitted) = effectivePeerCIDR4 wg := by
  constructor
  · obtain ⟨range, reads⟩ := validatePeerCIDR_ok valid
    have below := base_lt range
    refine ⟨range.net, .v4 range.base, .v4 (range.base + 1), .v4 (range.base + 2), ?_⟩
    exact {
      parsed := reads
      masked := congrArg Prefix.addr range.net_masked
      first := ⟨next_network range, contains_host range (show 1 < 4 by decide)⟩
      second := ⟨next_gateway range, contains_host range (show 2 < 4 by decide)⟩
      server := by
        rw [gatewayIPFromPrefix, range.net_masked]
        simp only [Ipam.PeerCIDR.net, Addr.is4, next_network]
        rfl
      reserved := Ipam.reserved reads
      excluded := fun a inside => unusable_iff range reads inside
      probe := by
        have steps : range.net.masked.addr.next.bind Addr.next = some (.v4 (range.base + 2)) := by
          rw [range.net_masked]
          exact (congrArg (·.bind Addr.next) (next_network range)).trans (next_gateway range)
        rw [peerProbeSource, steps]
        exact if_pos (contains_host range (show 2 < 4 by decide))
      usable := (addressUsable_iff reads).mpr ⟨_, rfl, probe_allocatable range⟩
      apart := ⟨by simp only [ne_eq, Addr.v4.injEq]; bv_omega, by simp only [ne_eq, Addr.v4.injEq]; bv_omega⟩ }
  · intro wg privateKey admitted
    by_cases unset : wg.spec.peerCIDR = ""
    · simp [peerCIDR, desiredState, effectivePeerCIDR4, unset]
    · simp [peerCIDR, desiredState, effectivePeerCIDR4, unset]

/-- The last four addresses of IPv4. -/
theorem derivations_agree_at_the_top :
    ∃ p network gw src, Agreed "255.255.255.252/30" p network gw src :=
  (derivations_agree "255.255.255.252/30" (by decide +kernel)).1

end TunnelOperator.Agent
