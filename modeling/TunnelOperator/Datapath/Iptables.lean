import TunnelOperator.Datapath.Firewall
import TunnelOperator.Library.Attempt
import Mathlib.Logic.Relation

/-! internal/datapath/datapath.go: Ensure as a program of netlink calls, runs of the
iptables binary and writes of the recorded result, and the iptables state it runs against,
which others may flush between any two commands. -/
namespace TunnelOperator.Datapath
open Netip Program

/-- An error is its text, and nil is `none`. -/
abbrev GoError := Option String

inductive Command where
  | routing (request : RoutingCall)
  | iptables (args : List String)
  | record (err : GoError)

abbrev CommandReply : Command → Type
  | .routing request => RoutingAnswer request
  | .iptables _ => GoError
  | .record _ => Unit

/-- No error ends the program: the source handles each one. -/
abbrev Asserter := Program Command CommandReply Empty

/-- The argv that applies `op` to the rule. -/
def iptablesArgs (r : IptablesRule) (op : String) : List String :=
  ["-w", "5", "-t", r.table, op, r.chain] ++ r.spec

def policyArgs : List String := ["-w", "5", "-P", "FORWARD", "DROP"]

def appendError (r : IptablesRule) (e : String) : String :=
  "iptables -t " ++ r.table ++ " -A " ++ r.chain ++ " " ++ " ".intercalate r.spec ++ ": " ++ e

def runIptables (args : List String) : Asserter GoError := ask (Command.iptables args)

/-- The loop of ensureIptables. Any failure of a check counts as absent. -/
def assertRules : List IptablesRule → Asserter GoError
  | [] => return none
  | r :: rest => do
    match ← runIptables (iptablesArgs r "-C") with
    | none => assertRules rest
    | some _ =>
      match ← runIptables (iptablesArgs r "-A") with
      | some e => return some (appendError r e)
      | none => assertRules rest

def ensureIptables (p : Prefix) : Asserter GoError := do
  match ← runIptables policyArgs with
  | some e => return some ("iptables -P FORWARD DROP: " ++ e)
  | none => assertRules (rules p)

/-- errors.Join -/
def joinErrors : GoError → GoError → GoError
  | some first, some second => some (first ++ "\n" ++ second)
  | some first, none => some first
  | none, second => second

def failure : Except String Unit → GoError
  | .ok _ => none
  | .error e => some e

def attemptRouting (p : Prefix) : Asserter (Except String Unit) :=
  attempt .routing (fun _ answer => answer) (ensureRouting p)

/-- Records the result, which Err reports from then on, and returns it. -/
def record (err : GoError) : Asserter GoError := do
  let _ ← ask (.record err)
  return err

def ensure (peerCIDR : String) : Asserter GoError :=
  match parsePrefix peerCIDR with
  | .error e => record (some ("parse peerCIDR " ++ Strconv.quote peerCIDR ++ ": " ++ e))
  | .ok p => do
    let p := p.masked
    let routing ← attemptRouting p
    let iptables ← ensureIptables p
    record (joinErrors (failure routing) iptables)

/-- Calls of Ensure, which its mutex takes one after the other, and their results. -/
def ensureEach : List String → Asserter (List GoError)
  | [] => return []
  | peerCIDR :: rest => do
    let err ← ensure peerCIDR
    let errs ← ensureEach rest
    return err :: errs

/-! The server pod's side. -/

/-- The policy of FORWARD, the rules of each chain of each table, and Datapath.err. -/
structure Server where
  policy : String
  chains : String → String → List (List String)
  err : GoError

namespace Server

def append (s : Server) (table chain : String) (spec : List String) : Server :=
  { s with chains := fun t c => if t = table ∧ c = chain then s.chains t c ++
    [spec] else s.chains t c }

def flush (s : Server) (table chain : String) : Server :=
  { s with chains := fun t c => if t = table ∧ c = chain then [] else s.chains t c }

def rulesOf (s : Server) (r : IptablesRule) : List (List String) := s.chains r.table r.chain

def copies (s : Server) (r : IptablesRule) : Nat := (s.rulesOf r).count r.spec

def Has (s : Server) (r : IptablesRule) : Prop := r.spec ∈ s.rulesOf r

end Server

/-- datapath.New, on a server with the given tables. -/
def Server.new (policy : String) (chains : String → String → List (List String)) : Server :=
  ⟨policy, chains, some "datapath not asserted yet"⟩

/-- What others in the pod do. -/
inductive Interferes : Server → Server → Prop where
  | flush (table chain : String) : Interferes s (s.flush table chain)
  | policy (verdict : String) : Interferes s { s with policy := verdict }

abbrev Interference : Server → Server → Prop := Relation.ReflTransGen Interferes

/-- The iptables binary: a check succeeds exactly when the rule is there, an append adds it
or fails without effect, and a policy command may fail either way. -/
inductive Iptables : Server → List String → GoError → Server → Prop where
  | policySet : Iptables s ["-w", "5", "-P", "FORWARD", verdict] none { s with policy := verdict }
  | policyFailed : Iptables s ["-w", "5", "-P", "FORWARD", verdict] (some e) s
  | policyUnreported : Iptables s ["-w", "5", "-P", "FORWARD", verdict] (some e)
    { s with policy := verdict }
  | present (r : IptablesRule) : s.Has r → Iptables s (iptablesArgs r "-C") none s
  | absent (r : IptablesRule) : ¬ s.Has r → Iptables s (iptablesArgs r "-C") (some e) s
  | appended (r : IptablesRule) :
    Iptables s (iptablesArgs r "-A") none (s.append r.table r.chain r.spec)
  | refused (r : IptablesRule) : Iptables s (iptablesArgs r "-A") (some e) s

def Performs (s : Server) : (request : Command) → CommandReply request → Server → Prop
  | .routing _, _, t => t = s
  | .iptables args, answer, t => Iptables s args answer t
  | .record err, _, t => t = { s with err := err }

/-- Netlink calls are answered in any way. -/
def serverEnv (outside : Server → Server → Prop) : Environment Command CommandReply Server :=
  fun s request answer u => ∃ t, outside s t ∧ Performs t request answer u

section Commands
variable {s t : Server} {r : IptablesRule} {answer : GoError}

theorem iptablesArgs_injective {r' : IptablesRule}
    (same : iptablesArgs r op = iptablesArgs r' op') :
    r = r' ∧ op = op' := by
  obtain ⟨table, chain, spec⟩ := r
  obtain ⟨table', chain', spec'⟩ := r'
  simp only [iptablesArgs, List.cons_append, List.nil_append, List.cons.injEq, true_and] at same
  obtain ⟨rfl, rfl, rfl, rfl⟩ := same
  exact ⟨rfl, rfl⟩

theorem iptables_check (ran : Iptables s (iptablesArgs r "-C") answer t) :
    t = s ∧ (answer = none ↔ s.Has r) := by
  generalize argv : iptablesArgs r "-C" = args at ran
  cases ran with
  | policySet | policyFailed | policyUnreported => simp [iptablesArgs] at argv
  | present r' has =>
    obtain ⟨rfl, -⟩ := iptablesArgs_injective argv
    exact ⟨rfl, by simpa using has⟩
  | absent r' lacks =>
    obtain ⟨rfl, -⟩ := iptablesArgs_injective argv
    exact ⟨rfl, by simpa using lacks⟩
  | appended r' | refused r' => simp [iptablesArgs] at argv

theorem iptables_append (ran : Iptables s (iptablesArgs r "-A") answer t) :
    (answer = none ∧ t = s.append r.table r.chain r.spec) ∨ (answer ≠ none ∧ t = s) := by
  generalize argv : iptablesArgs r "-A" = args at ran
  cases ran with
  | policySet | policyFailed | policyUnreported => simp [iptablesArgs] at argv
  | present r' | absent r' => simp [iptablesArgs] at argv
  | appended r' =>
    obtain ⟨rfl, -⟩ := iptablesArgs_injective argv
    exact .inl ⟨rfl, rfl⟩
  | refused r' => exact .inr ⟨by simp, rfl⟩

theorem iptables_policy (ran : Iptables s policyArgs answer t) :
    t.chains = s.chains ∧ t.err = s.err ∧ (answer = none → t.policy = "DROP") := by
  generalize argv : policyArgs = args at ran
  cases ran with
  | policySet =>
    simp only [policyArgs, List.cons.injEq, true_and, and_true] at argv
    exact ⟨rfl, rfl, fun _ => argv.symm⟩
  | policyFailed => exact ⟨rfl, rfl, by simp⟩
  | policyUnreported => exact ⟨rfl, rfl, by simp⟩
  | present | absent | appended | refused => simp [policyArgs, iptablesArgs] at argv

end Commands
end TunnelOperator.Datapath
