import TunnelOperator.Sidecar.Tunnel
import TunnelOperator.Standard.NetText

/-! internal/sidecar/tunnel.go: the configuration the client gives its WireGuard device,
and the passes of the sidecar over a device that nobody else touches. -/
namespace TunnelOperator.Sidecar
open Netip Net

/-- resources.Keepalive, in nanoseconds. -/
def keepalive : Int := 25 * 1000000000

/-- wgtypes.Peer -/
structure DevicePeer where
  publicKey : Wgtypes.Key
  endpoint : Option UDPAddr
  persistentKeepaliveInterval : Int
  allowedIPs : List ByteNet
  deriving DecidableEq

/-- wgtypes.Device -/
structure Device where
  privateKey : Wgtypes.Key
  peers : List DevicePeer
  deriving DecidableEq

/-- wgtypes.PeerConfig -/
structure PeerConfig where
  publicKey : Wgtypes.Key
  endpoint : Option UDPAddr
  persistentKeepaliveInterval : Option Int
  replaceAllowedIPs : Bool
  allowedIPs : List ByteNet
  deriving DecidableEq

/-- wgtypes.Config -/
structure WgtypesConfig where
  privateKey : Option Wgtypes.Key
  replacePeers : Bool
  peers : List PeerConfig
  deriving DecidableEq

def allowed : List ByteNet := [⟨[0, 0, 0, 0], [0, 0, 0, 0]⟩]

def deviceMatches (dev : Option Device) (key : Wgtypes.Key) (t : Tunnel) (allowed : List ByteNet) :
    Bool :=
  match dev with
  | none => false
  | some dev =>
    if dev.privateKey ≠ key then false
    else match dev.peers with
    | [p] =>
      match p.endpoint with
      | none => false
      | some endpoint =>
        if p.publicKey ≠ t.serverKey ∨ p.persistentKeepaliveInterval ≠ keepalive then false
        else if endpoint.unmapped ≠ some t.endpoint then false
        else p.allowedIPs.length = 1 && p.allowedIPs.head?.map ByteNet.string =
          allowed.head?.map ByteNet.string
    | _ => false

/-- The configuration, and whether there is one. -/
def deviceConfig (dev : Option Device) (key : Wgtypes.Key) (t : Tunnel) : WgtypesConfig × Bool :=
  if deviceMatches dev key t allowed then (⟨none, false, []⟩, false)
  else (⟨some key, true, [⟨t.serverKey, some (udpAddrFromAddrPort t.endpoint), some keepalive, true,
    allowed⟩]⟩, true)

/-! The device. -/

/-- What a device reports of a peer it was given: the endpoint may come back in its 16-byte
form. -/
structure Reports (c : PeerConfig) (p : DevicePeer) : Prop where
  publicKey : p.publicKey = c.publicKey
  endpoint : ∀ given, c.endpoint = some given → ∃ told, p.endpoint = some told ∧
    told.port = given.port ∧
    (told.ip = given.ip ∨ given.ip.length = 4 ∧ told.ip = v4InV6Prefix ++ given.ip)
  keepalive : ∀ interval, c.persistentKeepaliveInterval = some interval →
    p.persistentKeepaliveInterval = interval
  allowedIPs : c.replaceAllowedIPs = true → p.allowedIPs = c.allowedIPs

/-- ConfigureDevice with ReplacePeers sets the private key and exactly the listed peers. -/
structure Configures (cfg : WgtypesConfig) (dev : Device) : Prop where
  privateKey : ∀ key, cfg.privateKey = some key → dev.privateKey = key
  peers : cfg.replacePeers = true → List.Forall₂ Reports cfg.peers dev.peers

/-- Passes of Apply with one key and one tunnel. The flags say which of them configured the
device. -/
inductive Passes (key : Wgtypes.Key) (t : Tunnel) : Option Device → List Bool → Prop where
  | none : Passes key t dev []
  | kept : (deviceConfig dev key t).2 = false → Passes key t dev flags →
    Passes key t dev (false :: flags)
  | configured : (deviceConfig dev key t).2 = true → Configures (deviceConfig dev key t).1 after →
      Passes key t (some after) flags → Passes key t dev (true :: flags)

/-! What a matching device is. -/

/-- 0.0.0.0/0: an IPv4 address and a mask of IPv4 length. -/
def EveryIPv4 (n : ByteNet) : Prop := Spells n.ip 0 ∧ n.mask = [0, 0, 0, 0]

/-- A network with a mask of IPv6 length, such as ::ffff:0:0/96, that prints as 0.0.0.0/0. -/
def Disguised (n : ByteNet) : Prop :=
  Spells n.ip 0 ∧ n.mask.length = 16 ∧ n.mask.drop 12 = [0, 0, 0, 0]

/-- The private key and exactly one peer, with the server's key, the endpoint in one of its
two forms, the keepalive and one allowed network as `network` says. -/
structure HasTunnel (network : ByteNet → Prop) (key : Wgtypes.Key) (t : Tunnel) (bits : BitVec 32)
    (dev : Device) : Prop where
  privateKey : dev.privateKey = key
  peer : ∃ p endpoint n, dev.peers = [p] ∧ p.publicKey = t.serverKey ∧ p.endpoint = some endpoint ∧
    (Spells endpoint.ip bits ∧ endpoint.port = t.endpoint.port) ∧
      p.persistentKeepaliveInterval = keepalive ∧
    p.allowedIPs = [n] ∧ network n

section Matching
variable {dev : Option Device} {key : Wgtypes.Key} {t : Tunnel} {bits : BitVec 32}

theorem to4_zero {ip : IP} : to4 ip = some [0, 0, 0, 0] ↔ Spells ip 0 := by
  unfold to4 Spells
  have zero : slice4 0 = [0, 0, 0, 0] := by decide
  rw [zero]
  by_cases four : ip.length = 4
  · have short : ip ≠ v4InV6Prefix ++ [0, 0, 0, 0] := fun same => by simp [same, v4InV6Prefix] at four
    simp [four, short]
  · have long : ip ≠ [0, 0, 0, 0] := fun same => four (by rw [same]; rfl)
    rw [if_neg four]
    constructor
    · intro mapped
      split at mapped
      · rename_i shape
        refine .inr ?_
        rw [← shape.2, ← Option.some.inj mapped, List.take_append_drop]
      · contradiction
    · rintro (same | rfl)
      · exact absurd same long
      · decide

theorem prints_every (n : ByteNet) : n.string = "0.0.0.0/0" ↔ EveryIPv4 n ∨ Disguised n := by
  rw [string_everyIPv4, to4_zero, EveryIPv4, Disguised, and_or_left]

theorem allowed_printed : allowed.head?.map ByteNet.string = some "0.0.0.0/0" := by decide

theorem deviceMatches_iff (ipv4 : t.endpoint.addr = .v4 bits) :
    deviceMatches dev key t allowed = true ↔
    ∃ d, dev = some d ∧ HasTunnel (fun n => EveryIPv4 n ∨ Disguised n) key t bits d := by
  have endpoint : t.endpoint = ⟨.v4 bits, t.endpoint.port⟩ := by rw [← ipv4]
  constructor
  · intro matching
    cases dev with
    | none => contradiction
    | some d =>
      unfold deviceMatches at matching
      split at matching
      · contradiction
      · split at matching
        · contradiction
        rename_i d' same keyed
        obtain rfl := Option.some.inj same
        split at matching
        · rename_i p alone
          split at matching
          · contradiction
          rename_i told reported
          split at matching
          · contradiction
          rename_i peerFields
          split at matching
          · contradiction
          rename_i sameEndpoint
          rw [not_or, not_not, not_not] at peerFields
          rw [not_not] at keyed sameEndpoint
          rw [allowed_printed, Bool.and_eq_true, decide_eq_true_eq, decide_eq_true_eq] at matching
          obtain ⟨n, single⟩ := List.length_eq_one_iff.mp matching.1
          rw [single, List.head?_cons, Option.map_some, Option.some.injEq, prints_every] at matching
          rw [endpoint] at sameEndpoint
          exact ⟨d, rfl, keyed, p, told, n, alone, peerFields.1, reported,
            unmapped_v4.mp sameEndpoint, peerFields.2, single, matching.2⟩
        · contradiction
  · rintro ⟨d, rfl, keyed, p, told, n, alone, serverKey, reported, spelled, interval, single, network⟩
    have sameEndpoint : told.unmapped = some t.endpoint := by
      rw [endpoint]
      exact unmapped_v4.mpr spelled
    have printed := (prints_every n).mpr network
    simp [deviceMatches, keyed, alone, serverKey, reported, interval, sameEndpoint, single,
      allowed_printed, printed]

/-- What deviceConfig asks for makes it ask for nothing. -/
theorem deviceMatches_configured (ipv4 : t.endpoint.addr = .v4 bits)
    (fits : t.endpoint.port < 2 ^ 16)
    (changed : (deviceConfig dev key t).2 = true)
    (configures : Configures (deviceConfig dev key t).1 after) :
    (deviceConfig (some after) key t).2 = false := by
  unfold deviceConfig at changed configures
  split at changed
  · contradiction
  rename_i differs
  rw [if_neg differs] at configures
  obtain ⟨privateKey, peers⟩ := configures
  obtain ⟨p, reports, alone⟩ :
      ∃ p, Reports ⟨t.serverKey, some (udpAddrFromAddrPort t.endpoint), some keepalive, true,
      allowed⟩ p ∧ after.peers = [p] := by
    have listed := peers rfl
    generalize after.peers = given at listed
    cases listed with
    | cons first rest =>
      cases rest
      exact ⟨_, first, rfl⟩
  obtain ⟨told, reported, port, form⟩ := reports.endpoint _ rfl
  have given : (udpAddrFromAddrPort t.endpoint).ip = slice4 bits ∧
      (udpAddrFromAddrPort t.endpoint).port = t.endpoint.port := by
    simp only [udpAddrFromAddrPort, ipv4, Nat.mod_eq_of_lt fits, and_self]
  rw [given.1] at form
  rw [given.2] at port
  have matching : deviceMatches (some after) key t allowed = true := by
    refine (deviceMatches_iff ipv4).mpr
      ⟨after, rfl, privateKey key rfl, p, told, ⟨[0, 0, 0, 0], [0, 0, 0, 0]⟩, alone,
      reports.publicKey, reported, ⟨form.imp_right And.right, port⟩, reports.keepalive _ rfl,
        reports.allowedIPs rfl,
      .inl ⟨.inl (by decide), rfl⟩⟩
  rw [deviceConfig, if_pos matching]

/-- The passes over a device that is as it should be leave it alone. -/
theorem passes_kept (matching : (deviceConfig dev key t).2 = false)
    (passes : Passes key t dev flags) :
    ∀ flag ∈ flags, flag = false := by
  induction passes with
  | none => simp
  | kept _ _ ih => exact List.forall_mem_cons.mpr ⟨rfl, ih matching⟩
  | configured changed => rw [matching] at changed; contradiction

/-- Of any number of passes with one tunnel at most one configures the device. -/
theorem passes_once (ipv4 : t.endpoint.addr = .v4 bits) (fits : t.endpoint.port < 2 ^ 16)
    (passes : Passes key t dev flags) : ∀ flag ∈ flags.tail, flag = false := by
  cases passes with
  | none => simp
  | kept matching rest => exact passes_kept matching rest
  | configured changed configures rest =>
    exact passes_kept (deviceMatches_configured ipv4 fits changed configures) rest

end Matching

/-- The client configures its device once: it leaves alone only a device that is as it should
be, and what it asks for is that, so that no later pass with the tunnel asks again. -/
structure ConfiguresOnce (dev : Option Device) (key : Wgtypes.Key) (t : Tunnel) (bits : BitVec 32) :
    Prop where
  sound : (deviceConfig dev key t).2 = false → ∃ d, dev = some d ∧ HasTunnel EveryIPv4 key t bits d
  settles : (deviceConfig dev key t).2 = true →
    ∀ after, Configures (deviceConfig dev key t).1 after →
    (deviceConfig (some after) key t).2 = false
  once : ∀ flags, Passes key t dev flags → ∀ flag ∈ flags.tail, flag = false

theorem every_not_disguised (every : EveryIPv4 n) : ¬ Disguised n := by
  rintro ⟨-, size, -⟩
  rw [every.2] at size
  contradiction

theorem configuresOnce_iff (dev : Option Device) (key : Wgtypes.Key) (t : Tunnel) (bits : BitVec 32)
    (ipv4 : t.endpoint.addr = .v4 bits) (fits : t.endpoint.port < 2 ^ 16) :
    ConfiguresOnce dev key t bits ↔ ¬ ∃ d, dev = some d ∧ HasTunnel Disguised key t bits d := by
  have quiet : (deviceConfig dev key t).2 = false ↔ deviceMatches dev key t allowed = true := by
    unfold deviceConfig
    split
    · rename_i matching
      simp [matching]
    · rename_i differs
      simp [differs]
  constructor
  · rintro ⟨sound, -, -⟩ ⟨d, rfl, keyed, p, told, n, alone, serverKey, reported, spelled, interval,
      single, disguised⟩
    have matching := (deviceMatches_iff ipv4).mpr
      ⟨d, rfl, keyed, p, told, n, alone, serverKey, reported, spelled,
      interval, single, .inr disguised⟩
    obtain ⟨d', same, -, p', told', n', alone', -, -, -, -, single', every⟩ :=
      sound (quiet.mpr matching)
    obtain rfl := Option.some.inj same
    obtain rfl : p = p' := (List.cons.inj (alone.symm.trans alone')).1
    obtain rfl : n = n' := (List.cons.inj (single.symm.trans single')).1
    exact every_not_disguised every disguised
  · intro plain
    refine ⟨fun unchanged => ?_,
      fun changed after configures => deviceMatches_configured ipv4 fits changed configures,
      fun flags passes => passes_once ipv4 fits passes⟩
    obtain ⟨d, rfl, keyed, p, told, n, alone, serverKey, reported, spelled, interval, single, every
        | disguised⟩ :=
      (deviceMatches_iff ipv4).mp (quiet.mp unchanged)
    · exact ⟨d, rfl, keyed, p, told, n, alone, serverKey, reported, spelled, interval,
        single, every⟩
    · exact absurd ⟨d, rfl, keyed, p, told, n, alone, serverKey, reported, spelled, interval,
        single, disguised⟩ plain

section Sample

def sampleKey (byte : UInt8) : Wgtypes.Key := .filled byte

def sampleTunnel : Tunnel := ⟨.single (.v4 0x0a080002), sampleKey 2, ⟨.v4 0x0a60000a, 51820⟩, []⟩

/-- The client's device, its server's only allowed network being `n`. -/
def sampleDevice (n : ByteNet) : Device :=
  ⟨sampleKey 1, [⟨sampleKey 2, some ⟨v4InV6Prefix ++ slice4 0x0a60000a, 51820, "", by decide⟩,
    keepalive, [n]⟩]⟩

theorem plain_network_configured :
    ConfiguresOnce (some (sampleDevice ⟨[0, 0, 0, 0], [0, 0, 0, 0]⟩))
      (sampleKey 1) sampleTunnel 0x0a60000a := by
  refine (configuresOnce_iff _ _ _ _ rfl (by decide)).mpr ?_
  rintro ⟨d, same, -, p, told, n, alone, -, -, -, -, single, -, size, -⟩
  obtain rfl := Option.some.inj same
  obtain rfl := (List.cons.inj alone).1
  obtain rfl := (List.cons.inj single).1
  contradiction

/-- ::ffff:0:0/96, which routes no IPv4 packet to the server. -/
def mappedNetwork : ByteNet :=
  ⟨v4InV6Prefix ++ [0, 0, 0, 0], List.replicate 12 0xff ++ [0, 0, 0, 0]⟩

theorem mapped_network_kept :
    ¬ ConfiguresOnce (some (sampleDevice mappedNetwork)) (sampleKey 1) sampleTunnel 0x0a60000a := by
  intro once
  obtain ⟨d, same, -, p, told, n, alone, -, -, -, -, single, -, mask⟩ := once.sound (by decide)
  obtain rfl := Option.some.inj same
  obtain rfl := (List.cons.inj alone).1
  obtain rfl := (List.cons.inj single).1
  contradiction

end Sample

end TunnelOperator.Sidecar
