import Mathlib.Data.List.AList
import TunnelOperator.Ipam
import TunnelOperator.Library.Ownership
import TunnelOperator.Standard.Base64

/-! internal/wireguard and internal/agent: the configuration the agent computes for the
server's WireGuard device from state.json and the device's peers. -/
namespace TunnelOperator.Agent
open Net Netip

/-- wgtypes.Peer: a peer of the device. -/
structure DevicePeer where
  publicKey : Wgtypes.Key
  allowedIPs : List IPNet
  deriving DecidableEq

/-- The device routes each allowed IP to one peer. -/
abbrev Device := Ownership Wgtypes.Key IPNet

def Device.peers (device : Device) : List DevicePeer :=
  device.owners.map fun key => ⟨key, device.held key⟩

structure PeerConfig where
  publicKey : Wgtypes.Key
  remove : Bool
  updateOnly : Bool
  replaceAllowedIPs : Bool
  allowedIPs : List IPNet
  deriving DecidableEq

structure Config where
  privateKey : Wgtypes.Key
  listenPort : Int
  replacePeers : Bool
  peers : List PeerConfig
  deriving DecidableEq

def PeerConfig.change (p : PeerConfig) : Ownership.Change Wgtypes.Key IPNet :=
  ⟨p.publicKey, p.remove, p.updateOnly, p.replaceAllowedIPs, p.allowedIPs⟩

/-- WireGuard applies the peer entries of a configuration one after another. -/
def configureDevice (device : Device) (cfg : Config) : Device :=
  let base : Device := if cfg.replacePeers then ⟨[], [], .nil, .nil, nofun⟩ else device
  base.applyAll (cfg.peers.map PeerConfig.change)

/-- An order in which Go ranges over the values of a map. -/
structure MapOrder (α : Type) where
  visit : List α → List α
  perm : ∀ values, (visit values).Perm values

/-- Why no configuration is computed: the device cannot be read, a key does not parse,
or a peer's address does not. -/
inductive ConfigurationError where
  | device (message : String)
  | key (text : String)
  | peer (message : String)
  deriving DecidableEq

def getIP (ip : String) : Except String (List IPNet) :=
  match parseCIDR ip with
  | .ok ipnet => .ok [ipnet]
  | .error err => .error ("parse allowed IP " ++ Strconv.quote ip ++ ": " ++ err)

/-- The host network of a peer's address. -/
def hostIPs (peer : WireguardPeer) : Except ConfigurationError (List IPNet) :=
  match getIP (peer.status.address ++ "/32") with
  | .ok allowed => .ok allowed
  | .error err => .error (.peer ("peer " ++ Strconv.quote peer.name ++ ": " ++ err))

def parseKey (text : String) : Except ConfigurationError Wgtypes.Key :=
  match Wgtypes.parseKey text with
  | some key => .ok key
  | none => .error (.key text)

def allowedIPsEqual : List IPNet → List IPNet → Bool
  | [], [] => true
  | a :: as, b :: bs => ipEqual a.addr b.addr && mask a = mask b && allowedIPsEqual as bs
  | _, _ => false

abbrev PeersState := AList fun _ : String => WireguardPeer
abbrev PeerConfigs := AList fun _ : String => PeerConfig

def peersStateOf (peers : List WireguardPeer) : PeersState :=
  peers.foldl (fun peersState peer => peersState.insert peer.spec.publicKey peer) ∅

def desiredAllowed (peerState : WireguardPeer) : Except ConfigurationError (List IPNet) :=
  if peerState.status.address ≠ "" then hostIPs peerState else .ok []

/-- The entry for a peer the device has: none if it is as it should be. -/
def existingConfig (peersState : PeersState) (peer : DevicePeer) :
    Except ConfigurationError (Option PeerConfig) :=
  match peersState.lookup peer.publicKey.string with
  | none => .ok (some ⟨peer.publicKey, true, false, false, peer.allowedIPs⟩)
  | some peerState => do
    let allowed ← desiredAllowed peerState
    if allowedIPsEqual allowed peer.allowedIPs then .ok none
    else .ok (some ⟨peer.publicKey, false, true, true, allowed⟩)

/-- The entry for a peer of the state: none if it cannot be served or the device has it. -/
def newConfig (existing : List String) (peer : WireguardPeer) :
    Except ConfigurationError (Option PeerConfig) :=
  if peer.spec.publicKey = "" then .ok none
  else if peer.status.address = "" then .ok none
  else do
    let key ← parseKey peer.spec.publicKey
    if key.string ∈ existing then .ok none
    else
      let allowed ← hostIPs peer
      .ok (some ⟨key, false, false, false, allowed⟩)

def record (configs : PeerConfigs) : Option PeerConfig → PeerConfigs
  | none => configs
  | some p => configs.insert p.publicKey.string p

/-- One loop of createPeersConfiguration: each item may add an entry, and the first
error ends it. -/
def collect (entry : α → Except ConfigurationError (Option PeerConfig)) (configs : PeerConfigs) :
    List α → Except ConfigurationError PeerConfigs
  | [] => .ok configs
  | item :: rest => do
    let p ← entry item
    collect entry (record configs p) rest

def createPeersConfiguration (order : MapOrder PeerConfig) (device : Except String Device)
    (state : State) :
    Except ConfigurationError (List PeerConfig) :=
  let peersState := peersStateOf state.peers
  match device with
  | .error message => .error (.device message)
  | .ok device => do
    let updated ← collect (existingConfig peersState) ∅ device.peers
    let configs ← collect (newConfig (device.peers.map (·.publicKey.string))) updated state.peers
    .ok (order.visit (configs.entries.map (·.2)))

def createWireguardConfiguration (order : MapOrder PeerConfig) (device : Except String Device)
    (state : State) (listenPort : Int) : Except ConfigurationError Config := do
  let key ← parseKey state.serverPrivateKey
  let peers ← createPeersConfiguration order device state
  .ok ⟨key, listenPort, false, peers⟩

end TunnelOperator.Agent
