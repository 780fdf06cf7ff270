import TunnelOperator.Api
import TunnelOperator.Standard.AddrPort
import TunnelOperator.Standard.Base64

/-! internal/sidecar/tunnel.go: the client's WireGuard configuration, read from its
WireguardPeer's status. -/
namespace TunnelOperator.Sidecar
open Netip Strconv

structure Tunnel where
  address : Prefix
  serverKey : Wgtypes.Key
  endpoint : AddrPort
  localCIDRs : List Prefix
  deriving DecidableEq

/-- `waiting` wraps errWaiting; `key` is followed by wgtypes' own text. -/
inductive TunnelError where
  | waiting (message : String)
  | invalid (message : String)
  | key (message : String)
  deriving DecidableEq

def conditionStatusString : ConditionStatus → String
  | .true => "True"
  | .false => "False"
  | .unknown => "Unknown"

def notReadyWhy (peer : WireguardPeer) : String :=
  match findStatusCondition peer.status.conditions "Ready" with
  | none => ""
  | some c => " (Ready=" ++ conditionStatusString c.status ++ " " ++ c.reason ++ ": " ++
    c.message ++ ")"

def lacks (peer : WireguardPeer) (field : String) : TunnelError :=
  .waiting ("waiting for the operator: WireguardPeer " ++ peer.name ++ " has no " ++ field)

def parseLocalCIDR (peer : WireguardPeer) (c : String) : Except TunnelError Prefix :=
  let entry := "status.localCIDRs entry " ++ quote c ++ " of WireguardPeer " ++ peer.name
  match parsePrefix c with
  | .error err => .error (.invalid ("parse " ++ entry ++ ": " ++ err))
  | .ok p =>
    if p.bits = 0 then
      .error (.invalid (entry ++ " covers every address, so nothing would go through the tunnel"))
    else .ok p.masked

def parseLocalCIDRs (peer : WireguardPeer) : Except TunnelError (List Prefix) :=
  peer.status.localCIDRs.mapM (parseLocalCIDR peer)

def desiredTunnel (peer : WireguardPeer) : Except TunnelError Tunnel :=
  if peer.status.address = "" then .error (lacks peer ("status.address" ++ notReadyWhy peer))
  else if peer.status.endpoint = "" then .error (lacks peer "status.endpoint")
  else if peer.status.serverPublicKey = "" then .error (lacks peer "status.serverPublicKey")
  else if peer.status.localCIDRs = [] then .error (lacks peer "status.localCIDRs")
  else match parseAddr peer.status.address with
  | .error err => .error (.invalid
      ("parse status.address " ++ quote peer.status.address ++ " of WireguardPeer " ++ peer.name ++
        ": " ++ err))
  | .ok (.v6 ..) => .error (.invalid
      ("status.address " ++ quote peer.status.address ++ " of WireguardPeer " ++ peer.name ++
        " is not IPv4"))
  | .ok (.v4 value) =>
    match parseAddrPort peer.status.endpoint with
    | .error err => .error (.invalid
        ("parse status.endpoint " ++ quote peer.status.endpoint ++ " of WireguardPeer " ++
          peer.name ++ ": " ++ err))
    | .ok endpoint =>
      match Wgtypes.parseKey peer.status.serverPublicKey with
      | none => .error (.key ("parse status.serverPublicKey of WireguardPeer " ++
        peer.name ++ ": "))
      | some serverKey => do
        let cidrs ← parseLocalCIDRs peer
        .ok ⟨Prefix.single (.v4 value), serverKey, endpoint, cidrs⟩

end TunnelOperator.Sidecar
