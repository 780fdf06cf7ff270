import TunnelOperator.Agent.Link
import TunnelOperator.Library.Attempt
import TunnelOperator.Resources
import TunnelOperator.Sidecar.DeviceConfig
import TunnelOperator.Sidecar.Routes

/-! internal/sidecar/apply.go: a pass of the client over the pod's network namespace, as a
program of system calls and of netlink calls on the main table. -/
namespace TunnelOperator.Sidecar
open Netip Net Program
open Agent (SystemError NetCall NetAnswer LinkError NetProgram NetNS Driver netEnv syncLink
    syncAddress)

inductive PodCall where
  | net (request : NetCall WgtypesConfig)
  | routes (request : NetlinkCall)

abbrev PodAnswer : PodCall → Type
  | .net request => NetAnswer Device request
  | .routes request => NetlinkAnswer request

abbrev PodProgram := Program PodCall PodAnswer LinkError

def onLink (text : String) (program : NetProgram WgtypesConfig Device α) : PodProgram α := do
  match ← attempt PodCall.net (fun _ answer => answer) program with
  | .ok value => .done value
  | .error e => .fail (e.wrap text)

def moveRoutes (t : Tunnel) (index : Nat) : PodProgram (Except LinkError Unit) := do
  match ← attempt PodCall.routes (fun _ answer => answer) (ensureRoutes index t.localCIDRs) with
  | .ok _ => .done (.ok ())
  | .error e => .done (.error (.message ("routes: " ++ e)))

def routeTunnel (t : Tunnel) : PodProgram (Except LinkError Unit) :=
  .call (.net (.system (.linkByName Resources.wgInterface))) fun
    | .error e => .done (.error (.message ("look up " ++ Resources.wgInterface ++ ": " ++ e.text)))
    | .ok link => moveRoutes t link.index

/-- The device is configured only when it differs. -/
def configureTunnel (key : Wgtypes.Key) (t : Tunnel) (dev : Device) :
    PodProgram (Except LinkError Unit) :=
  if (deviceConfig (some dev) key t).2 then
    .call (.net (.system (.configureDevice Resources.wgInterface
      (deviceConfig (some dev) key t).1))) fun
      | .error e => .done (.error (.message ("configure device: " ++ e.text)))
      | .ok _ => routeTunnel t
  else routeTunnel t

/-- What Apply does with the wgctrl client open. -/
def serveTunnel (key : Wgtypes.Key) (t : Tunnel) : PodProgram (Except LinkError Unit) :=
  .call (.net (.system (.device Resources.wgInterface))) fun
    | .error e => .done (.error (.message ("read device: " ++ e.text)))
    | .ok dev => configureTunnel key t dev

/-- errors.Join with the error of the deferred Close. -/
def joined (text : String) : LinkError → LinkError
  | .stuck => .stuck
  | .message e => .message (e ++ "\n" ++ text)

def closed : Except LinkError Unit → Except SystemError Unit → PodProgram Unit
  | .ok _, .ok _ => .done ()
  | .ok _, .error e => .fail (.message ("close wgctrl client: " ++ e.text))
  | .error e, .ok _ => .fail e
  | .error e, .error e' => .fail (joined ("close wgctrl client: " ++ e'.text) e)

/-- podDatapath.Apply -/
def apply (key : Wgtypes.Key) (t : Tunnel) : PodProgram Unit := do
  onLink "sync link: " (syncLink Resources.wgInterface Resources.tunnelMTU
    Resources.userspaceImplementation)
  onLink "sync address: " (syncAddress Resources.wgInterface t.address)
  .call (.net (.system .openWgctrl)) fun
    | .error e => .fail (.message ("open wgctrl client: " ++ e.text))
    | .ok _ => do
      let result ← serveTunnel key t
      .call (.net (.system .closeWgctrl)) (closed result)

/-! The pod's network namespace. -/

/-- The links, and the main table of IPv4. The addresses are hosts, so that none of them
adds a route to that table. -/
structure PodNet where
  ns : NetNS Device
  table : MainTable

/-- A configuration that is refused may leave any device. -/
def podDriver : Driver WgtypesConfig Device where
  fresh := ⟨⟨List.replicate 32 0, List.length_replicate⟩, []⟩
  configures _ := Configures
  partly _ _ _ := True

/-- What a system call makes of the main table: routes of a link go with its addresses. -/
def TableAfter (s s' : PodNet) : (request : NetCall WgtypesConfig) → NetAnswer Device request → Prop
  | .system (.addrDel i _), .ok _ => Agent.Forgets Route.linkIndex i
      (∀ l, s'.ns.links i = some l → l.addresses = []) s.table.entries s'.table.entries
  | _, _ => s'.table = s.table

def podEnv : Environment PodCall PodAnswer PodNet
  | s, .net request, answer, s' =>
    netEnv podDriver s.ns request answer s'.ns ∧ TableAfter s s' request answer
  | s, .routes request, answer, s' => Kernel AnyOrder s.table request answer s'.table ∧ s'.ns = s.ns

end TunnelOperator.Sidecar
