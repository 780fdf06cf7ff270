import TunnelOperator.Agent.StateFileProofs

/-! Which state the agent's callback was given last, over every interleaving of writes with
the agent's steps: a write between the first read and the start of the watch is seen only
if an event follows. -/
namespace TunnelOperator.Agent

/-- A run can be computed. -/
theorem Follows.replay {sum256 : StateText → Digest} {s : Follower}
    (before : Follows sum256 file moves s)
    (replayed : more.foldlM (Follower.move sum256) s = some t) :
    Follows sum256 file (moves ++ more) t := by
  induction more generalizing moves s with
  | nil =>
    obtain rfl := Option.some.inj replayed
    rwa [List.append_nil]
  | cons next rest ih =>
    obtain ⟨u, moved, later⟩ := Option.bind_eq_some_iff.mp replayed
    rw [← List.singleton_append, ← List.append_assoc]
    exact ih (before.step moved) later

/-- Once every event has been handled and the file holds a valid state, that state was the
last one passed to the callback exactly when the file was read after its last write, or
the last read found the same state. -/
theorem last_state_delivered_iff (sum256 : StateText → Digest) (file : Option StateText)
    (moves : List Move)
    (s : Follower) (run : Follows sum256 file moves s)
    (free : CollisionFree sum256 (· ∈ contents file moves))
    (hash : String) (idle : s.phase = .watching hash) (drained : s.queued = 0) (content : StateText)
    (stored : s.file = some content) (state : State) (parsed : content.unmarshal = some state)
    (valid : isStateValid state = none) :
    s.calls.getLast? = some state ↔
      (view file moves).unread = false ∨ (view file moves).seen.bind StateText.unmarshal =
        some state := by
  have tracks := run.tracks free fun _ => id
  have stands := tracks.stands
  rw [Stands, idle] at stands
  obtain ⟨answered, -, missed⟩ := stands
  constructor
  · intro last
    cases unread : (view file moves).unread with
    | false => exact .inl rfl
    | true =>
      right
      rcases missed unread with waiting | first
      · omega
      · rw [first] at last
        cases found : getDesiredState sum256 (view file moves).seen with
        | none => simp [found, delivered] at last
        | some read =>
          obtain ⟨seen, newHash⟩ := read
          obtain ⟨content', same, parsed', -⟩ := getDesiredState_some found
          rw [same, Option.bind_some, parsed']
          rw [found, delivered] at last
          split at last
          · exact last
          · contradiction
  · rintro (read | same)
    · refine answered state ?_ valid
      rw [tracks.read read, ← tracks.file, stored]
      exact parsed
    · exact answered state same valid

/-! A peer joins while the agent starts. -/

def emptyState : State where
  server := ⟨"gw", "vpn", 1,
    ⟨"10.8.0.0/24", ["10.96.0.0/12"], .empty, [], [], ⟨.empty⟩, none⟩, .empty⟩
  serverPrivateKey := "yAnz5TF+lXXJte14tji3zlMNq+hd2rYUIgJBgB3fBmk="
  peers := []

def joinedState : State :=
  { emptyState with peers := [{
      name := "laptop", nameSpace := "apps", generation := 1, creationTimestamp := 7
      spec := ⟨"xTIBA5rboUvnH4htodjb6e697QjLERt1NAB4mZqp8Dg=", "gw", "vpn"⟩
      status := { WireguardPeerStatus.empty with address := "10.8.0.2" } }] }

def emptyFile : StateText := .marshal emptyState
def joinedFile : StateText := .marshal joinedState

def filled (byte : UInt8) : Digest := ⟨List.ofFn fun _ : Fin 32 => byte, List.length_ofFn⟩

/-- A digest that tells the two files apart. -/
def sampleSum (content : StateText) : Digest := if content = joinedFile then filled 1 else filled 0

theorem sampleSum_free : CollisionFree sampleSum (· ∈ [emptyFile, joinedFile]) := by
  have apart : sampleSum emptyFile ≠ sampleSum joinedFile := by decide +kernel
  intro first second one two same
  simp only [List.mem_cons, List.not_mem_nil, or_false] at one two
  rcases one with rfl | rfl <;> rcases two with rfl | rfl
  · rfl
  · exact absurd same apart
  · exact absurd same.symm apart
  · rfl

/-- The peer joins before the watch, and another event makes the agent read the file. -/
def noticedMoves : List Move :=
  [.load, .callBack, .write joinedFile, .addWatch, .event, .receive, .handle]

def noticed : Follower :=
  (noticedMoves.foldlM (Follower.move sampleSum) (.initial (some emptyFile))).get
    (by decide +kernel)

theorem joinedState_noticed : noticed.calls.getLast? = some joinedState := by
  have run : Follows sampleSum (some emptyFile) noticedMoves noticed :=
    .replay .start (Option.some_get _).symm
  refine (last_state_delivered_iff sampleSum _ _ _ run sampleSum_free _ rfl rfl joinedFile rfl
    joinedState rfl (by decide +kernel)).mpr (.inl rfl)

/-- The same without that event. -/
def overlookedMoves : List Move := [.load, .callBack, .write joinedFile, .addWatch]

def overlooked : Follower :=
  (overlookedMoves.foldlM (Follower.move sampleSum) (.initial (some emptyFile))).get
    (by decide +kernel)

/-- The agent waits for events with none outstanding, and has never seen the peer. -/
theorem joinedState_overlooked :
    Follows sampleSum (some emptyFile) overlookedMoves overlooked ∧ overlooked.phase.watched ∧
      overlooked.queued = 0 ∧ overlooked.file = some joinedFile ∧ isStateValid joinedState = none ∧
      overlooked.calls = [emptyState] := by
  refine ⟨.replay .start (Option.some_get _).symm, rfl, rfl, rfl, ?_, ?_⟩ <;> decide +kernel

end TunnelOperator.Agent
