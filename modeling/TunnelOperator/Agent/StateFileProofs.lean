import TunnelOperator.Agent.StateFile

/-! What a run of the agent has written and read, and what it remembers of it: an invariant
of every interleaving, one lemma for each step. -/
namespace TunnelOperator.Agent

/-- What a run has written and read so far. -/
structure View where
  file : Option StateText
  /-- What the last read found. -/
  seen : Option StateText
  /-- No read has followed the last write. -/
  unread : Bool

def View.after (v : View) : Move → View
  | .write content => { v with file := some content, unread := true }
  | .load | .receive => { v with seen := v.file, unread := false }
  | _ => v

def view (file : Option StateText) (moves : List Move) : View :=
  moves.foldl View.after ⟨file, none, true⟩

theorem view_append (file : Option StateText) (moves : List Move) (next : Move) :
    view file (moves ++ [next]) = (view file moves).after next := by
  simp [view]

def Move.content : Move → Option StateText
  | .write content => some content
  | _ => none

/-- All the file has ever held. -/
def contents (file : Option StateText) (moves : List Move) : List StateText :=
  file.toList ++ moves.filterMap Move.content

section
variable {sum256 : StateText → Digest} {known : StateText → Prop} {v : View} {s t : Follower}
  {hash : String} {calls : List State} {seen : Option StateText}

/-- No two of the known contents have the same digest. -/
def CollisionFree (sum256 : StateText → Digest) (known : StateText → Prop) : Prop :=
  ∀ first second, known first → known second → sum256 first = sum256 second → first = second

/-- The last call was made for what the last read found, if that is a valid state. -/
def Answered (seen : Option StateText) (calls : List State) : Prop :=
  ∀ state, seen.bind StateText.unmarshal = some state → isStateValid state = none →
    calls.getLast? = some state

/-- The hash is that of a content for which the last call was made, or of no content. -/
def Remembers (sum256 : StateText → Digest) (known : StateText → Prop) (hash : String)
    (calls : List State) : Prop :=
  hash = "" ∨ ∃ content, known content ∧ hash = Hex.encodeToString (sum256 content).val ∧
    Answered (some content) calls

theorem hash_ne_empty (digest : Digest) : Hex.encodeToString digest.val ≠ "" := by
  intro empty
  have none := Hex.encodeToString_injective (show _ = Hex.encodeToString [] from empty)
  have length := digest.property
  rw [none] at length
  contradiction

theorem getDesiredState_some (read : getDesiredState sum256 seen = some (state, newHash)) :
    ∃ content, seen = some content ∧ content.unmarshal = some state ∧
      newHash = Hex.encodeToString (sum256 content).val := by
  cases seen with
  | none => contradiction
  | some content =>
    obtain ⟨found, parsed, ended⟩ := Option.bind_eq_some_iff.mp read
    obtain ⟨rfl, rfl⟩ := Prod.mk.inj (Option.some.inj ended)
    exact ⟨content, rfl, parsed, rfl⟩

theorem getDesiredState_none (read : getDesiredState sum256 seen = none) :
    seen.bind StateText.unmarshal = none := by
  cases seen with
  | none => rfl
  | some content =>
    cases parsed : content.unmarshal with
    | none => exact parsed
    | some state => simp [getDesiredState, parsed] at read

theorem delivered_valid (valid : isStateValid state = none) :
    delivered (some (state, newHash)) = [state] := by
  simp [delivered, valid]

/-- Calling back for what was read, and remembering its hash. -/
theorem called_back (read : getDesiredState sum256 seen = some (state, newHash))
    (from_known : ∀ content, seen = some content → known content) (before : List State) :
    Answered seen (before ++ delivered (some (state, newHash))) ∧
      Remembers sum256 known newHash (before ++ delivered (some (state, newHash))) := by
  obtain ⟨content, rfl, parsed, rfl⟩ := getDesiredState_some read
  have answered : Answered (some content) (before ++ delivered
      (some (state, Hex.encodeToString (sum256 content).val))) := by
    intro other same valid
    obtain rfl : state = other := Option.some.inj (parsed.symm.trans same)
    rw [delivered_valid valid, List.getLast?_concat]
  exact ⟨answered, .inr ⟨content, from_known content rfl, rfl, answered⟩⟩

/-- Where the follower stands after what `v` says was written and read. -/
def Stands (sum256 : StateText → Digest) (known : StateText → Prop) (v : View) (s : Follower) :
    Prop :=
  match s.phase with
  | .starting => s.calls = []
  | .loaded read => read = getDesiredState sum256 v.seen ∧ s.calls = []
  | .listening hash => Answered v.seen s.calls ∧ Remembers sum256 known hash s.calls ∧
      s.calls = delivered (getDesiredState sum256 v.seen)
  | .watching hash => Answered v.seen s.calls ∧ Remembers sum256 known hash s.calls ∧
      (v.unread → 0 < s.queued ∨ s.calls = delivered (getDesiredState sum256 v.seen))
  | .handling hash read =>
      read = getDesiredState sum256 v.seen ∧ Remembers sum256 known hash s.calls ∧
      (v.unread → 0 < s.queued)

structure Tracks (sum256 : StateText → Digest) (known : StateText → Prop) (v : View)
    (s : Follower) : Prop where
  file : s.file = v.file
  held : ∀ content, v.file = some content ∨ v.seen = some content → known content
  read : v.unread = false → v.seen = v.file
  stands : Stands sum256 known v s

theorem tracks_initial (from_known : ∀ content, file = some content → known content) :
    Tracks sum256 known (view file []) (.initial file) := by
  refine ⟨rfl, ?_, nofun, rfl⟩
  rintro content (here | none)
  · exact from_known content here
  · contradiction

/-- A write, or an event for another entry: only what waits in the queue grows. -/
theorem Stands.queue (stands : Stands sum256 known v s) (same : v'.seen = v.seen)
    (waits : s.phase.watched = true → 0 < queued) :
    Stands sum256 known v' { s with file := file, queued := queued } := by
  obtain ⟨_, phase, _, calls⟩ := s
  cases phase with
  | starting => exact stands
  | loaded read => exact ⟨same ▸ stands.1, stands.2⟩
  | listening hash => exact ⟨same ▸ stands.1, stands.2.1, same ▸ stands.2.2⟩
  | watching hash => exact ⟨same ▸ stands.1, stands.2.1, fun _ => .inl (waits rfl)⟩
  | handling hash read => exact ⟨same ▸ stands.1, stands.2.1, fun _ => waits rfl⟩

theorem Tracks.write (tracks : Tracks sum256 known v s) (is_known : known content)
    (moved : s.move sum256 (.write content) = some t) :
    Tracks sum256 known (v.after (.write content)) t := by
  obtain rfl := Option.some.inj moved
  refine ⟨rfl, ?_, nofun, tracks.stands.queue rfl fun watched => ?_⟩
  · rintro other (here | before)
    · exact Option.some.inj here ▸ is_known
    · exact tracks.held other (.inr before)
  · rw [if_pos watched]
    exact Nat.succ_pos _

theorem Tracks.event (tracks : Tracks sum256 known v s) (moved : s.move sum256 .event = some t) :
    Tracks sum256 known v t := by
  simp only [Follower.move] at moved
  split at moved
  · obtain rfl := Option.some.inj moved
    exact ⟨tracks.file, tracks.held, tracks.read, tracks.stands.queue rfl fun _ => Nat.succ_pos _⟩
  · contradiction

/-- After a read the file is what was seen. -/
theorem Tracks.reads (tracks : Tracks sum256 known v s) (same : t.file = s.file)
    (stands : Stands sum256 known { v with seen := v.file, unread := false } t) :
    Tracks sum256 known { v with seen := v.file, unread := false } t :=
  ⟨same.trans tracks.file, fun content here => tracks.held content (.inl (here.elim id id)),
    fun _ => rfl, stands⟩

theorem Tracks.load (tracks : Tracks sum256 known v s) (moved : s.move sum256 .load = some t) :
    Tracks sum256 known (v.after .load) t := by
  obtain ⟨file, phase, queued, calls⟩ := s
  cases phase with
  | starting =>
    obtain rfl := Option.some.inj moved
    exact tracks.reads rfl ⟨congrArg _ tracks.file, tracks.stands⟩
  | loaded | listening | watching | handling => contradiction

theorem Tracks.receive (tracks : Tracks sum256 known v s)
    (moved : s.move sum256 .receive = some t) :
    Tracks sum256 known (v.after .receive) t := by
  obtain ⟨file, phase, queued, calls⟩ := s
  cases phase with
  | watching hash =>
    cases queued with
    | zero => contradiction
    | succ queued =>
      obtain rfl := Option.some.inj moved
      exact tracks.reads rfl ⟨congrArg _ tracks.file, tracks.stands.2.1, nofun⟩
  | starting | loaded | listening | handling => contradiction

theorem Tracks.callBack (tracks : Tracks sum256 known v s)
    (moved : s.move sum256 .callBack = some t) :
    Tracks sum256 known v t := by
  obtain ⟨file, phase, queued, calls⟩ := s
  cases phase with
  | loaded read =>
    obtain rfl := Option.some.inj moved
    obtain ⟨rfl, none⟩ := tracks.stands
    obtain rfl : calls = [] := none
    refine ⟨tracks.file, tracks.held, tracks.read, ?_⟩
    cases found : getDesiredState sum256 v.seen with
    | none =>
      refine ⟨fun state parsed => ?_, .inl rfl, by rw [found]; rfl⟩
      rw [getDesiredState_none found] at parsed
      contradiction
    | some read =>
      obtain ⟨answered, remembers⟩ :=
        called_back found (fun content here => tracks.held content (.inr here)) []
      exact ⟨answered, remembers, by rw [found]; rfl⟩
  | starting | listening | watching | handling => contradiction

theorem Tracks.addWatch (tracks : Tracks sum256 known v s)
    (moved : s.move sum256 .addWatch = some t) :
    Tracks sum256 known v t := by
  obtain ⟨file, phase, queued, calls⟩ := s
  cases phase with
  | listening hash =>
    obtain rfl := Option.some.inj moved
    obtain ⟨answered, remembers, first⟩ := tracks.stands
    exact ⟨tracks.file, tracks.held, tracks.read, answered, remembers, fun _ => .inr first⟩
  | starting | loaded | watching | handling => contradiction

/-- An event whose content hashes as before needs no call: it is the content the last call
was made for. -/
theorem unchanged_answered (free : CollisionFree sum256 known)
    (remembers : Remembers sum256 known hash calls)
    (is_known : ∀ content, seen = some content → known content)
    (read : getDesiredState sum256 seen = some (state, hash)) : Answered seen calls := by
  obtain ⟨content, rfl, parsed, rfl⟩ := getDesiredState_some read
  rcases remembers with none | ⟨earlier, kept, same, answered⟩
  · exact absurd none (hash_ne_empty _)
  · obtain rfl := free content earlier (is_known content rfl) kept
      (Subtype.ext (Hex.encodeToString_injective same))
    exact answered

theorem Tracks.handle (free : CollisionFree sum256 known) (tracks : Tracks sum256 known v s)
    (moved : s.move sum256 .handle = some t) : Tracks sum256 known v t := by
  obtain ⟨file, phase, queued, calls⟩ := s
  cases phase with
  | handling hash read =>
    obtain rfl := Option.some.inj moved
    obtain ⟨rfl, remembers, waits⟩ := tracks.stands
    have is_known : ∀ content, v.seen = some content → known content :=
      fun content here => tracks.held content (.inr here)
    cases found : getDesiredState sum256 v.seen with
    | none =>
      refine ⟨tracks.file, tracks.held, tracks.read, fun state parsed => ?_, remembers,
        fun unread => .inl (waits unread)⟩
      rw [getDesiredState_none found] at parsed
      contradiction
    | some read =>
      obtain ⟨state, newHash⟩ := read
      rw [Follower.handled]
      split
      · rename_i same
        subst same
        exact ⟨tracks.file, tracks.held, tracks.read,
          unchanged_answered free remembers is_known found, remembers,
          fun unread => .inl (waits unread)⟩
      · obtain ⟨answered, remembers⟩ := called_back found is_known calls
        exact ⟨tracks.file, tracks.held, tracks.read, answered, remembers,
          fun unread => .inl (waits unread)⟩
  | starting | loaded | listening | watching => contradiction

theorem Tracks.move (free : CollisionFree sum256 known) (tracks : Tracks sum256 known v s)
    (is_known : ∀ content, next.content = some content → known content)
    (moved : s.move sum256 next = some t) :
    Tracks sum256 known (v.after next) t := by
  cases next with
  | write content => exact tracks.write (is_known content rfl) moved
  | event => exact tracks.event moved
  | load => exact tracks.load moved
  | callBack => exact tracks.callBack moved
  | addWatch => exact tracks.addWatch moved
  | receive => exact tracks.receive moved
  | handle => exact tracks.handle free moved

theorem Follows.tracks (free : CollisionFree sum256 known) (run : Follows sum256 file moves s)
    (is_known : ∀ content ∈ contents file moves, known content) :
    Tracks sum256 known (view file moves) s := by
  induction run with
  | start => exact tracks_initial fun content here => is_known content (by simp [contents, here])
  | @step moves s next t before moved ih =>
    have earlier := ih fun content member => is_known content (by
      rcases List.mem_append.mp member with first | later
      · exact List.mem_append_left _ first
      · rw [contents, List.filterMap_append]
        exact List.mem_append_right _ (List.mem_append_left _ later))
    rw [view_append]
    refine earlier.move free (fun content written => is_known content ?_) moved
    exact List.mem_append_right _ (by simp [written])

end
end TunnelOperator.Agent
