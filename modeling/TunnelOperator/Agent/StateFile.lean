import TunnelOperator.Api
import TunnelOperator.Standard.Hex

/-! internal/agent/agent.go: how the agent follows its state file. -/
namespace TunnelOperator.Agent

/-- The first peer without address or key, by its index. -/
def peerProblem (peers : List WireguardPeer) (i : Nat) : Option String :=
  match peers with
  | [] => none
  | peer :: rest =>
    if peer.status.address = "" then
      some ("peer with index " ++ toString i ++ " does not have the address defined")
    else if peer.spec.publicKey = "" then
      some ("peer with index " ++ toString i ++ " does not have a public key defined")
    else peerProblem rest (i + 1)

def isStateValid (state : State) : Option String :=
  if state.serverPrivateKey = "" then some "server private key is not defined"
  else if state.serverPrivateKey.utf8ByteSize ≠ 44 then
    some "server private key should be of length 44"
  else peerProblem state.peers 0

/-- What sha256.Sum256 returns. -/
abbrev Digest := { bytes : List UInt8 // bytes.length = 32 }

section
variable (sum256 : StateText → Digest)

/-- A state with the hash of the file it was read from; nothing when the file is missing
or does not parse, where the source returns the error and an empty hash. -/
def getDesiredState (file : Option StateText) : Option (State × String) := do
  let jsonFile ← file
  let state ← jsonFile.unmarshal
  return (state, Hex.encodeToString (sum256 jsonFile).val)

/-- The states onFileChange is called with for what was read. -/
def delivered : Option (State × String) → List State
  | some (state, _) => if (isStateValid state).isNone then [state] else []
  | none => []

/-- How far OnStateChange is. -/
inductive Phase where
  | starting
  /-- The file was read and the callback has not been called yet. -/
  | loaded (read : Option (State × String))
  /-- The goroutine waits for events under the hash it remembers; watcher.Add is to come. -/
  | listening (hash : String)
  | watching (hash : String)
  /-- An event was received and the file read again. -/
  | handling (hash : String) (read : Option (State × String))

def Phase.watched : Phase → Bool
  | .watching _ | .handling .. => true
  | _ => false

structure Follower where
  file : Option StateText
  phase : Phase
  /-- Events that wait to be received. -/
  queued : Nat
  /-- The states the callback was called with, oldest first. -/
  calls : List State

def Follower.initial (file : Option StateText) : Follower := ⟨file, .starting, 0, []⟩

/-- The steps of OnStateChange and, in the first two, of what happens around it: a write
of the file, and an event for another entry of the directory. -/
inductive Move where
  | write (content : StateText)
  | event
  | load
  | callBack
  | addWatch
  | receive
  | handle
  deriving DecidableEq

/-- The rest of an iteration of the event loop. -/
def Follower.handled (s : Follower) (hash : String) : Option (State × String) → Follower
  | none => { s with phase := .watching hash }
  | some (state, newHash) =>
    if newHash = hash then { s with phase := .watching hash }
    else { s with phase := .watching newHash, calls := s.calls ++ delivered (some (state, newHash)) }

/-- One step, where it can be taken. Only a watched directory yields events. -/
def Follower.move (s : Follower) : Move → Option Follower
  | .write content =>
    some { s with file := some content, queued := if s.phase.watched then s.queued + 1 else s.queued }
  | .event => if s.phase.watched then some { s with queued := s.queued + 1 } else none
  | .load =>
    match s.phase with
    | .starting => some { s with phase := .loaded (getDesiredState sum256 s.file) }
    | _ => none
  | .callBack =>
    match s.phase with
    | .loaded read =>
      some { s with phase := .listening ((read.map (·.2)).getD ""), calls := s.calls ++ delivered read }
    | _ => none
  | .addWatch =>
    match s.phase with
    | .listening hash => some { s with phase := .watching hash }
    | _ => none
  | .receive =>
    match s.phase, s.queued with
    | .watching hash, queued + 1 =>
      some { s with phase := .handling hash (getDesiredState sum256 s.file), queued := queued }
    | _, _ => none
  | .handle =>
    match s.phase with
    | .handling hash read => some (s.handled hash read)
    | _ => none

/-- Any interleaving of writes with the agent's steps. -/
inductive Follows (file : Option StateText) : List Move → Follower → Prop where
  | start : Follows file [] (.initial file)
  | step (before : Follows file moves s) (moved : s.move sum256 next = some t) : Follows file
    (moves ++ [next]) t

end
end TunnelOperator.Agent
