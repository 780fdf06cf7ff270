import TunnelOperator.Agent.LinkProofs
import TunnelOperator.Library.Attempt

/-! The programs for one link touch no other, and none of them waits for ever. -/
namespace TunnelOperator.Agent
open Net Netip Program

variable {Cfg Dev : Type} {driver : Driver Cfg Dev} {n n' : NetNS Dev}

def Owned (n : NetNS Dev) (iface : String) (i : Nat) : Prop :=
  ∃ l, n.links i = some l ∧ l.name = iface

/-- What the lookups of a run have told, in the state it ends in. -/
def Told (t : NetNS Dev) : (request : NetCall Cfg) → NetAnswer Dev request → Prop
  | .system (.linkByName iface), .ok link => Owned t iface link.index
  | _, _ => True

/-- The calls a program for `iface` makes; whether it may change routes is told apart. -/
def Own (t : NetNS Dev) (iface : String) (moves : Bool) : NetCall Cfg → Prop
  | .system (.linkSetMTU i _) | .system (.linkSetUp i) | .system (.addrAdd i _) => Owned t iface i
  | .system (.addrDel i _) => Owned t iface i ∧ moves = true
  | .system (.configureDevice name _) => name = iface
  | .system (.routeAdd _) => moves = true
  | _ => True

theorem Owned.stays (step : netEnv driver n request answer n') (owned : Owned n iface i) :
    Owned n' iface i := by
  obtain ⟨l, there, name⟩ := owned
  obtain ⟨l', here, same, -⟩ := step_links step there
  exact ⟨l', here, same.trans name⟩

theorem told_stays {other : NetCall Cfg} {reply : NetAnswer Dev other}
    (step : netEnv driver n request answer n')
    (told : Told n other reply) : Told n' other reply := by
  unfold Told at told ⊢
  split at told
  · exact Owned.stays step told
  · trivial

theorem told_step (step : netEnv driver n request answer n') : Told n' request answer := by
  unfold Told
  split
  · obtain ⟨l, there, name, -⟩ := linkByName_ok step
    exact ⟨l, there, name⟩
  · trivial

theorem Own.owned {request : NetCall Cfg} (own : Own n iface moves request)
    (target : Targets i name request) :
    Owned n iface i ∨ name = iface := by
  rcases request with - | duration | call
  · contradiction
  · contradiction
  · cases call with
    | linkSetMTU | linkSetUp | addrAdd => exact .inl (target ▸ own)
    | addrDel => exact .inl (target ▸ own.1)
    | configureDevice => exact .inr (target.symm.trans own)
    | _ => contradiction

theorem Own.keeps {request : NetCall Cfg} (own : Own n iface false request) :
    reroutes request = false := by
  rcases request with - | duration | call
  · rfl
  · rfl
  · cases call <;> simp_all [Own, reroutes]

section Runs
variable {ε α : Type} {program : Program (NetCall Cfg) (NetAnswer Dev) ε α} {outcome : Outcome ε α}
    {post : α → Prop}

theorem own_calls (run : Trace (netEnv driver) n program events outcome n')
    (safe : program.Safe (Told n') (Own n' iface moves) post) :
    ∀ event ∈ events, Own n' iface moves event.1 :=
  (run.safe_of_events safe (run.told told_step told_stays)).1

theorem own_others (run : Trace (netEnv driver) n program events outcome n')
    (safe : program.Safe (Told n') (Own n' iface moves) post) (there : n.links i = some l)
    (other : l.name ≠ iface) :
    n'.links i = some l := by
  obtain ⟨l', here, name, same⟩ := run_links run there
  have foreign : ¬ Owned n' iface i := by
    rintro ⟨found, at_, named⟩
    obtain rfl := Option.some.inj (at_.symm.trans here)
    exact other (name.symm.trans named)
  rw [here, same fun event member target =>
    ((own_calls run safe event member).owned target).elim foreign other]

theorem own_routes (run : Trace (netEnv driver) n program events outcome n') (iface : String)
    (safe : program.Safe (Told n') (Own n' iface false) post) : n'.routes = n.routes := by
  exact run_routes run fun event member => (own_calls run safe event member).keeps

end Runs

section Own
variable {t : NetNS Dev} {iface : String} {moves : Bool}

theorem Quiet.own {program : NetProgram Cfg Dev α} (safe : Quiet program) :
    program.Safe (Told t) (Own t iface moves) fun _ => True := by
  refine (Safe.weaken safe (fun request silent => ?_) fun _ => id).under fun _ _ _ => trivial
  rcases request with - | duration | call
  · trivial
  · trivial
  · cases call <;> simp_all [quiet, Own]

theorem findLink_own (mtu : Nat) (implementation : String) :
    (findLink iface mtu implementation : NetProgram Cfg Dev FoundLink).Safe (Told t)
    (Own t iface moves) fun link => Owned t iface link.index := by
  refine ⟨trivial, fun answer known => ?_⟩
  rcases answer with (text | text) | link
  · refine Safe.bind (createLink_quiet iface mtu implementation).own fun _ _ => ⟨trivial, fun answer known => ?_⟩
    cases answer with
    | error e => trivial
    | ok link => exact known
  · trivial
  · exact known

theorem linkSetUp_own (owned : Owned t iface i) (text : String) :
    (.call (.system (.linkSetUp i)) (orMessage text) :
    NetProgram Cfg Dev Unit).Safe (Told t) (Own t iface moves) fun _ => True :=
  ⟨owned, fun answer _ => (orMessage_quiet text answer).own⟩

theorem syncLink_own (mtu : Nat) (implementation : String) :
    (syncLink iface mtu implementation : NetProgram Cfg Dev Unit).Safe (Told t)
    (Own t iface moves) fun _ => True := by
  refine Safe.bind (findLink_own mtu implementation) fun link owned => ?_
  refine Safe.bind ?_ fun _ (_ : True) => linkSetUp_own owned _
  unfold setMTU
  split
  · trivial
  · exact ⟨owned, fun answer _ => (orMessage_quiet _ answer).own⟩

theorem removeAddresses_own (owned : Owned t iface i) (ps : List Prefix) :
    (removeAddresses i ps : NetProgram Cfg Dev Unit).Safe (Told t)
    (Own t iface true) fun _ => True := by
  induction ps with
  | nil => trivial
  | cons p rest ih =>
    refine ⟨⟨owned, rfl⟩, fun answer _ => ?_⟩
    cases answer with
    | error e => trivial
    | ok => exact ih

theorem syncAddress_own (want : Prefix) :
    (syncAddress iface want : NetProgram Cfg Dev Unit).Safe (Told t)
    (Own t iface true) fun _ => True := by
  refine ⟨trivial, fun answer known => ?_⟩
  cases answer with
  | error e => trivial
  | ok link =>
    have owned : Owned t iface link.index := known
    refine ⟨trivial, fun answer _ => ?_⟩
    cases answer with
    | error e => trivial
    | ok listed =>
      refine Safe.bind (removeAddresses_own owned _) fun _ _ => ?_
      refine Safe.bind ?_ fun _ (_ : True) => linkSetUp_own owned _
      unfold addAddress
      split
      · exact ⟨owned, fun answer _ => (orMessage_quiet _ answer).own⟩
      · trivial

theorem syncRoute_own (cidr : String) (gw : Addr) :
    (syncRoute iface cidr gw : NetProgram Cfg Dev Unit).Safe (Told t)
    (Own t iface true) fun _ => True := by
  refine ⟨trivial, fun answer _ => ?_⟩
  cases answer with
  | error e => trivial
  | ok link =>
    refine ⟨trivial, fun answer _ => ?_⟩
    cases answer with
    | error e => trivial
    | ok listed =>
      simp only [chooseRoute]
      split
      · trivial
      · split
        · trivial
        · exact ⟨rfl, fun answer _ => (orMessage_quiet _ answer).own⟩

end Own

/-! A link that has nothing but the address wanted keeps it. -/

section Holds
variable {want : Prefix} {iface : String}

def HoldsOnly (n : NetNS Dev) (iface : String) (want : Prefix) (i : Nat) : Prop :=
  ∃ l, n.links i = some l ∧ l.name = iface ∧ l.addresses = [want]

/-- What the lookups tell of such a link. -/
def FindsOnly (iface : String) (want : Prefix) (i : Nat) :
  (request : NetCall Cfg) → NetAnswer Dev request → Prop
  | .system (.linkByName name), .ok link => name = iface → link.index = i
  | .system (.addrList j), .ok listed => j = i → listed = [want]
  | _, _ => True

/-- The calls of a program that has nothing to change in addresses and routes. -/
def Spares : NetCall Cfg → Prop
  | .system (.addrDel ..) | .system (.addrAdd ..) | .system (.routeAdd _) => False
  | _ => True

theorem Spares.keeps {request : NetCall Cfg} (spares : Spares request) :
    reroutes request = false := by
  rcases request with - | duration | call
  · rfl
  · rfl
  · cases call <;> first | rfl | exact spares.elim

theorem HoldsOnly.step {request : NetCall Cfg} {answer : NetAnswer Dev request}
    (holds : HoldsOnly n iface want i)
    (spares : Spares request) (step : netEnv driver n request answer n') :
    FindsOnly iface want i request answer ∧ HoldsOnly n' iface want i := by
  obtain ⟨l, there, name, only⟩ := holds
  obtain ⟨m, path, answered⟩ := id step
  have here := appeared_links path there
  have changed : ∀ {j : Nat} {old new : Link Dev} (at_ : m.links j = some old)
      (named : new.name = old.name), new.addresses = old.addresses →
      HoldsOnly (m.change at_ new named) iface want i := by
    intro j old new at_ named addresses
    obtain ⟨l', there, name', addresses'⟩ := NetNS.change_relates
      (fun a b => b.name = a.name ∧ b.addresses = a.addresses) here at_ named ⟨rfl, rfl⟩
      fun _ => ⟨named, addresses⟩
    exact ⟨l', there, name'.trans name, addresses'.trans only⟩
  have still : HoldsOnly m iface want i := ⟨l, here, name, only⟩
  cases answered with
  | found at_ => exact ⟨fun named => NetNS.named _ at_ here (named.trans name.symm), still⟩
  | addresses at_ order =>
    refine ⟨?_, still⟩
    rintro rfl
    obtain rfl := Option.some.inj (at_.symm.trans here)
    exact List.perm_singleton.mp (only ▸ order)
  | mtuSet at_ => exact ⟨trivial, changed at_ _ rfl⟩
  | upSet at_ => exact ⟨trivial, changed at_ _ rfl⟩
  | configured at_ => exact ⟨trivial, changed at_ _ rfl⟩
  | halfConfigured at_ => exact ⟨trivial, changed at_ _ rfl⟩
  | added absent free => exact ⟨trivial, l, step_kept step (fun _ _ => id) i l there, name, only⟩
  | addressDeleted | addressAdded | routeAdded => exact spares.elim
  | @failed call text => exact ⟨by cases call <;> trivial, still⟩
  | _ => exact ⟨trivial, still⟩

theorem Quiet.spares {expected : (request : NetCall Cfg) → NetAnswer Dev request → Prop}
    {program : NetProgram Cfg Dev α} (safe : Quiet program) :
    program.Safe expected Spares fun _ => True := by
  refine (Safe.weaken safe (fun request silent => ?_) fun _ => id).under fun _ _ _ => trivial
  rcases request with - | duration | call
  · trivial
  · trivial
  · cases call <;> simp_all [quiet, Spares]

theorem syncLink_spares {expected : (request : NetCall Cfg) → NetAnswer Dev request → Prop}
    (iface : String) (mtu : Nat)
    (implementation : String) :
    (syncLink iface mtu implementation).Safe expected Spares fun _ => True := by
  refine Safe.bind (findLink_quiet _ _ _).spares fun link _ => Safe.bind ?_ fun _ (_ : True) => ?_
  · unfold setMTU
    split
    · trivial
    · exact ⟨trivial, fun answer _ => (orMessage_quiet _ answer).spares⟩
  · exact ⟨trivial, fun answer _ => (orMessage_quiet _ answer).spares⟩

theorem syncAddress_spares :
    (syncAddress iface want : NetProgram Cfg Dev Unit).Safe (FindsOnly iface want i) Spares
    fun _ => True := by
  refine ⟨trivial, fun answer found => ?_⟩
  cases answer with
  | error e => trivial
  | ok link =>
    refine ⟨trivial, fun answer listed => ?_⟩
    cases answer with
    | error e => trivial
    | ok addresses =>
      obtain rfl : addresses = [want] := listed (found rfl)
      have nothing : addressChanges [want] want = ([], false) := by simp [addressChanges]
      simp only [nothing, removeAddresses, addAddress]
      exact ⟨trivial, fun answer _ => (orMessage_quiet _ answer).spares⟩

/-- A program that spares addresses while it finds this one leaves link and routes alone. -/
theorem HoldsOnly.run {ε α : Type} {program : Program (NetCall Cfg) (NetAnswer Dev) ε α}
    {outcome : Outcome ε α}
    {post : α → Prop} (holds : HoldsOnly n iface want i)
    (run : Trace (netEnv driver) n program events outcome n')
    (safe : program.Safe (FindsOnly iface want i) Spares post) :
    HoldsOnly n' iface want i ∧ ∀ event ∈ events, reroutes event.1 = false := by
  have step : ∀ {s request answer t}, Spares request → netEnv driver s request answer t →
      HoldsOnly s iface want i → FindsOnly iface want i request answer ∧ HoldsOnly t iface want i :=
    fun spares step holds => holds.step spares step
  obtain ⟨holds, calls, -⟩ := run.safe safe step holds
  exact ⟨holds, fun event member => (calls event member).keeps⟩

end Holds

/-! No program uses up its rounds. -/

section Fails
variable {ε α β : Type} {bad : ε}

/-- The program does not fail in this way. -/
def Ends (driver : Driver Cfg Dev) (bad : ε) (program : Program (NetCall Cfg) (NetAnswer Dev) ε α) :
    Prop :=
  ∀ n events n', ¬ Trace (netEnv driver) n program events (.fail bad) n'

theorem Ends.call {request : NetCall Cfg}
    {next : NetAnswer Dev request → Program (NetCall Cfg) (NetAnswer Dev) ε α}
    (rest : ∀ answer, Ends driver bad (next answer)) : Ends driver bad (.call request next) := by
  intro n events n' run
  obtain ⟨answer, u, _, -, after, -⟩ := run.call_inv (by simp)
  exact rest answer _ _ _ after

theorem Ends.bind {program : Program (NetCall Cfg) (NetAnswer Dev) ε α}
    {next : α → Program (NetCall Cfg) (NetAnswer Dev) ε β} (first : Ends driver bad program)
    (rest : ∀ value, Ends driver bad (next value)) : Ends driver bad (program >>= next) := by
  intro n events n' run
  rcases run.bind_cases with ⟨-, cut⟩ | ⟨e, failed, same⟩ | ⟨value, u, _, _, -, after, -⟩
  · contradiction
  · cases same
    exact first _ _ _ failed
  · exact rest value _ _ _ after

theorem Ends.rethrow {ε' : Type} {reword : ε → ε'}
    {program : Program (NetCall Cfg) (NetAnswer Dev) ε α}
    (ends : Ends driver bad program) (injective : Function.Injective reword) :
    Ends driver (reword bad) (rethrow reword program) := by
  intro n events n' run
  obtain ⟨inner, run, ⟨v, -, same⟩ | ⟨e, rfl, same⟩ | ⟨-, same⟩⟩ := run.rethrown
  · contradiction
  · obtain rfl := injective (Outcome.fail.inj same)
    exact ends _ _ _ run
  · contradiction

theorem ends_done (value : α) :
    Ends driver bad (.done value : Program (NetCall Cfg) (NetAnswer Dev) ε α) :=
  fun _ _ _ run => by cases run

theorem ends_fail {e : ε} (other : e ≠ bad) :
    Ends driver bad (.fail e : Program (NetCall Cfg) (NetAnswer Dev) ε α) := by
  intro n events n' run
  cases run
  exact other rfl

end Fails

theorem ends_message (text : String) :
    Ends driver .stuck (.fail (.message text) : NetProgram Cfg Dev α) :=
  ends_fail (by simp)

theorem orMessage_ends (text : String) (answer : Except SystemError α) :
    Ends driver .stuck (orMessage text answer : NetProgram Cfg Dev α) := by
  cases answer with
  | ok value => exact ends_done value
  | error e => exact ends_message _

theorem createLink_ends (iface : String) (mtu : Nat) (implementation : String) :
    Ends driver .stuck (createLink iface mtu implementation) := by
  refine .call fun answer => ?_
  cases answer with
  | ok => exact ends_done _
  | error kernelErr =>
    refine .bind (.call fun answer => ?_) fun problem => ?_
    · cases answer with
      | error e => exact ends_done _
      | ok =>
        refine .call fun found => .bind ?_ fun problem => ?_
        · rcases found with (text | text) | character
          · refine .call fun answer => ?_
            cases answer <;> exact ends_done _
          · exact ends_done _
          · exact ends_done _
        · cases problem with
          | some => exact ends_done _
          | none =>
            refine .call fun answer => ?_
            cases answer <;> exact ends_done _
    · cases problem with
      | some => exact ends_message _
      | none => exact fun _ _ _ => waitForLink_ends _

theorem syncLink_ends (iface : String) (mtu : Nat) (implementation : String) :
    Ends driver .stuck (syncLink iface mtu implementation) := by
  refine .bind (.call fun answer => ?_) fun link => .bind ?_ fun _ => .call fun answer =>
    orMessage_ends _ answer
  · rcases answer with (text | text) | link
    · exact .bind (createLink_ends iface mtu implementation) fun _ => .call fun answer =>
        orMessage_ends _ answer
    · exact ends_message _
    · exact ends_done _
  · unfold setMTU
    split
    · exact ends_done _
    · exact .call fun answer => orMessage_ends _ answer

theorem removeAddresses_ends (i : Nat) (ps : List Prefix) :
    Ends driver .stuck (removeAddresses i ps) := by
  induction ps with
  | nil => exact ends_done _
  | cons p rest ih =>
    refine .call fun answer => ?_
    cases answer with
    | ok => exact ih
    | error e => exact ends_message _

theorem syncAddress_ends (iface : String) (want : Prefix) :
    Ends driver .stuck (syncAddress iface want) := by
  refine .call fun answer => ?_
  cases answer with
  | error e => exact ends_message _
  | ok link =>
    refine .call fun answer => ?_
    cases answer with
    | error e => exact ends_message _
    | ok listed =>
      refine .bind (removeAddresses_ends _ _) fun _ => .bind ?_ fun _ => .call fun answer =>
        orMessage_ends _ answer
      unfold addAddress
      split
      · exact .call fun answer => orMessage_ends _ answer
      · exact ends_done _

theorem syncRoute_ends (iface cidr : String) (gw : Addr) :
    Ends driver .stuck (syncRoute iface cidr gw) := by
  refine .call fun answer => ?_
  cases answer with
  | error e => exact ends_message _
  | ok link =>
    refine .call fun answer => ?_
    cases answer with
    | error e => exact ends_message _
    | ok listed =>
      simp only [chooseRoute]
      split
      · exact ends_done _
      · split
        · exact ends_message _
        · exact .call fun answer => orMessage_ends _ answer

end TunnelOperator.Agent
