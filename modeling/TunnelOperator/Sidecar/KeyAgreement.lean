import TunnelOperator.Sidecar.KeyFile

/-! All processes of a pod, over every restart, get one key. -/
namespace TunnelOperator.Sidecar
open Program

variable {ι : Type}

/-- The file holds the key. -/
def KeyVolume.Holds (v : KeyVolume ι) (key : Wgtypes.Key) : Prop :=
  ∃ content, v.file = some content ∧ keyOf content = some key

/-- How far a process has come, and what it knows of the file then. -/
inductive Stands (v : KeyVolume ι) (i : ι) : KeyLoader → Prop where
  | loading : Stands v i loadOrCreateKey
  | creating : Stands v i createKey
  | opening (key : Wgtypes.Key) : Stands v i (createKeyFile key)
  | writing (key : Wgtypes.Key) (mine : v.writer = some i) (empty : v.file = some "") :
    Stands v i (writeKey key)
  | closing (key : Wgtypes.Key) (whole : v.writer = some i ∧ v.file = some key.string) :
      Stands v i (closeKey key (.ok ()))
  | failing (key : Wgtypes.Key) (message : String) : Stands v i (closeKey key (.error message))
  | returned (key : Wgtypes.Key) (holds : v.Holds key) : Stands v i (.done key)
  | failed (e : KeyError) : Stands v i (.fail e)

theorem stands_loadKey {v : KeyVolume ι} (there : v.file = some content) :
    Stands v i (loadKey content) := by
  unfold loadKey
  cases found : keyOf content with
  | some key => exact .returned key ⟨content, there, found⟩
  | none => exact .failed _

/-- A process goes on to where its next call leaves it. -/
theorem Stands.step {program : KeyLoader} {request : KeyCall} {next : KeyAnswer request → KeyLoader}
    {answer : KeyAnswer request} {v v' : KeyVolume ι} (stands : Stands v i program)
    (ready : program = .call request next) (answered : KeyEnv i v request answer v') :
    Stands v' i (next answer) := by
  cases stands with
  | loading =>
    cases ready
    cases answered with
    | read there =>
      simp only [afterRead]
      exact stands_loadKey there
    | missing => exact .creating
    | unread => exact .failed _
  | creating =>
    cases ready
    cases answered with
    | generated answer =>
      cases answer with
      | ok key => exact .opening key
      | error => exact .failed _
  | opening key =>
    cases ready
    cases answered with
    | created absent answer =>
      cases answer with
      | ok => exact .writing key rfl rfl
      | error => exact .failed _
    | uncreated => exact .failed _
  | writing key mine empty =>
    cases ready
    cases answered with
    | written there mine =>
      obtain rfl := Option.some.inj (there.symm.trans empty)
      exact .closing key ⟨mine, congrArg some (String.empty_append)⟩
    | partly => exact .failing key _
  | closing key whole =>
    cases ready
    cases answered with
    | closed answer =>
      cases answer with
      | ok => exact .returned key ⟨_, whole.2, keyOf_string key⟩
      | error => exact .failed _
  | failing key message =>
    cases ready
    cases answered with
    | closed answer =>
      cases answer with
      | ok => exact .failed _
      | error => exact .failed _
  | returned | failed => contradiction

/-- What a call of a process does to the volume. -/
theorem Stands.effect {program : KeyLoader} {request : KeyCall}
    {next : KeyAnswer request → KeyLoader}
    {answer : KeyAnswer request} {v v' : KeyVolume ι} (stands : Stands v i program)
    (ready : program = .call request next) (answered : KeyEnv i v request answer v') :
    v' = v ∨ v.file = none ∨ (v.file = some "" ∧ v.writer = some i) := by
  cases answered with
  | read | missing | unread | generated | uncreated | closed => exact .inl rfl
  | created absent => exact .inr (.inl absent)
  | written there mine | partly there mine =>
    -- Only a process that has just created the file writes to it.
    cases stands with
    | writing key mine empty => exact .inr (.inr ⟨empty, mine⟩)
    | loading | creating | opening | closing | failing | returned | failed => cases ready

theorem KeyVolume.Holds.keeps {v v' : KeyVolume ι} (holds : v.Holds key)
    (effect : v' = v ∨ v.file = none ∨ (v.file = some "" ∧ v.writer = some i)) : v' = v := by
  obtain ⟨content, there, parsed⟩ := holds
  rcases effect with same | absent | ⟨empty, -⟩
  · exact same
  · rw [absent] at there
    contradiction
  · obtain rfl := Option.some.inj (there.symm.trans empty)
    rw [keyOf_empty] at parsed
    contradiction

theorem KeyVolume.Holds.unique {v : KeyVolume ι} (one : v.Holds key) (two : v.Holds key') :
    key' = key := by
  obtain ⟨content, there, parsed⟩ := one
  obtain ⟨content', there', parsed'⟩ := two
  obtain rfl := Option.some.inj (there.symm.trans there')
  exact Option.some.inj (parsed'.symm.trans parsed)

/-- The calls of another process leave a process where it stands. -/
theorem Stands.frame {program : KeyLoader} {v v' : KeyVolume ι} (stands : Stands v i program)
    (other : i ≠ j)
    (effect : v' = v ∨ v.file = none ∨ (v.file = some "" ∧ v.writer = some j)) :
    Stands v' i program := by
  have kept : ∀ content, v.file = some content → v.writer = some i → v' = v := by
    intro content there mine
    rcases effect with same | absent | ⟨-, theirs⟩
    · exact same
    · rw [absent] at there
      contradiction
    · exact absurd (Option.some.inj (mine.symm.trans theirs)) other
  cases stands with
  | loading => exact .loading
  | creating => exact .creating
  | opening key => exact .opening key
  | writing key mine empty => exact kept _ empty mine ▸ .writing key mine empty
  | closing key whole => exact kept _ whole.2 whole.1 ▸ .closing key whole
  | failing key message => exact .failing key message
  | returned key holds => exact holds.keeps effect ▸ .returned key holds
  | failed e => exact .failed e

section Runs
variable {c c' : KeyProcesses ι}

def AllStand (c : KeyProcesses ι) : Prop :=
  ∀ i program, c.running i = some program → Stands c.state i program

theorem AllStand.holds (stand : AllStand c) (returned : c.running i = some (.done key)) :
    c.state.Holds key := by
  cases stand i _ returned with
  | returned _ holds => exact holds

variable [DecidableEq ι]

theorem KeyStep.stands (step : KeyStep c c') (stand : AllStand c) : AllStand c' := by
  cases step with
  | start i =>
    intro j program found
    rcases Threads.running_update found with ⟨rfl, new⟩ | old
    · exact Option.some.inj new ▸ .loading
    · exact stand j program old
  | call i ready answered =>
    have here := stand i _ ready
    intro j program found
    by_cases same : j = i
    · subst same
      simp only [Function.update_self, Option.some.injEq] at found
      exact found ▸ here.step rfl answered
    · simp only [Function.update_of_ne same] at found
      exact (stand j program found).frame same (here.effect rfl answered)
  | stop i =>
    intro j program found
    rcases Threads.running_update found with ⟨-, new⟩ | old
    · contradiction
    · exact stand j program old
  | outside moved => contradiction

theorem stands_all (run : Relation.ReflTransGen KeyStep ⟨v, fun _ => none⟩ c) : AllStand c := by
  induction run with
  | refl => exact fun i program none => by contradiction
  | tail _ step ih => exact step.stands ih

/-- A file that holds a key stays as it is. -/
theorem KeyStep.holds (step : KeyStep c c') (stand : AllStand c) (holds : c.state.Holds key) :
    c'.state.Holds key := by
  cases step with
  | start | stop => exact holds
  | call i ready answered => exact holds.keeps ((stand i _ ready).effect rfl answered) ▸ holds
  | outside moved => contradiction

/-- A file that nobody here created is not written. -/
theorem KeyStep.foreign (step : KeyStep c c') (there : c.state = ⟨some content, none⟩) :
    c'.state = ⟨some content, none⟩ := by
  cases step with
  | start | stop => exact there
  | call i ready answered =>
    rw [there] at answered
    cases answered with
    | read | missing | unread | generated | uncreated | closed => rfl
    | created absent => contradiction
    | written _ mine | partly _ mine => contradiction
  | outside moved => contradiction

theorem foreign_all (run : Relation.ReflTransGen KeyStep ⟨⟨some content, none⟩, fun _ => none⟩ c) :
    c.state = ⟨some content, none⟩ := by
  induction run with
  | refl => rfl
  | tail _ step ih => exact step.foreign ih

/-- Of a file that was created here, a part of one key is there or the whole of it. -/
def KeyVolume.Piece (v : KeyVolume ι) : Prop :=
  ∀ content, v.file = some content → ∃ key : Wgtypes.Key, content.toList <+: key.string.toList

theorem KeyStep.piece (step : KeyStep c c') (stand : AllStand c) (piece : c.state.Piece) :
    c'.state.Piece := by
  cases step with
  | start | stop => exact piece
  | outside moved => contradiction
  | @call request next answer t i ready answered =>
    have here := stand i _ ready
    generalize shape : Program.call request next = program at here
    cases answered with
    | read | missing | unread | generated | uncreated | closed => exact piece
    | created absent answer =>
      rintro content ⟨⟩
      cases here with
      | opening key => exact ⟨key, List.nil_prefix⟩
      | loading | creating | writing | closing | failing | returned | failed => cases shape
    | written there mine =>
      rintro content ⟨⟩
      cases here with
      | writing key mine empty =>
        cases shape
        obtain rfl := Option.some.inj (there.symm.trans empty)
        exact ⟨key, [], by rw [List.append_nil, String.empty_append]⟩
      | loading | creating | opening | closing | failing | returned | failed => cases shape
    | partly there mine part =>
      rintro content ⟨⟩
      cases here with
      | writing key mine empty =>
        cases shape
        obtain rfl := Option.some.inj (there.symm.trans empty)
        exact ⟨key, by rwa [String.empty_append]⟩
      | loading | creating | opening | closing | failing | returned | failed => cases shape

theorem piece_all {v : KeyVolume ι} (absent : v.file = none)
    (run : Relation.ReflTransGen KeyStep ⟨v, fun _ => none⟩ c) :
    c.state.Piece := by
  induction run with
  | refl => exact fun content there => absurd (absent.symm.trans there) (by simp)
  | tail before step ih => exact step.piece (stands_all before) ih

theorem holds_all (run : Relation.ReflTransGen KeyStep c c') (stand : AllStand c)
    (holds : c.state.Holds key) :
    AllStand c' ∧ c'.state.Holds key := by
  induction run with
  | refl => exact ⟨stand, holds⟩
  | tail _ step ih => exact ⟨step.stands ih.1, step.holds ih.1 ih.2⟩

/-- No two processes, at any two times, get different keys, and the key one got is in the
file from then on. A file that was there from the start is never written; of one that was
not, only the text of a whole key is read as a key. -/
theorem loadOrCreateKey_agrees {file : Option String}
    (before : Relation.ReflTransGen KeyStep ⟨⟨file, none⟩, fun _ => none⟩ c)
    (after : Relation.ReflTransGen KeyStep c c') :
    (∀ i key, c.running i = some (.done key) →
      c'.state.Holds key ∧ ∀ j key', c'.running j = some (.done key') → key' = key) ∧
    (∀ content, file = some content → c'.state.file = some content) ∧
    (file = none → ∀ key, c'.state.Holds key → c'.state.file = some key.string) := by
  refine ⟨fun i key returned => ?_, ?_, ?_⟩
  · have stand := stands_all before
    obtain ⟨stand', holds⟩ := holds_all after stand (stand.holds returned)
    exact ⟨holds, fun j key' returned' => holds.unique (stand'.holds returned')⟩
  · rintro content rfl
    rw [foreign_all (before.trans after)]
  · rintro rfl key ⟨content, there, parsed⟩
    obtain ⟨written, part⟩ := piece_all rfl (before.trans after) content there
    obtain rfl := keyOf_piece part parsed
    rw [keyOf_string] at parsed
    rw [there, Option.some.inj parsed]

end Runs

/-- A process that is started and runs on its own is one of the interleavings. -/
theorem run_process [DecidableEq ι] {program : KeyLoader}
    (run : Trace (KeyEnv i) v program events (.done key) t) (running : ι → Option KeyLoader) :
    Relation.ReflTransGen KeyStep ⟨v, Function.update running i (some program)⟩
      ⟨t, Function.update running i (some (.done key))⟩ := by
  generalize outcome : Outcome.done key = ended at run
  induction run with
  | done =>
    cases outcome
    exact .refl
  | fail | cut => contradiction
  | @call v request answer t next _ _ _ answered rest ih =>
    have step : KeyStep ⟨v, Function.update running i (some (.call request next))⟩
        ⟨t, Function.update (Function.update running i (some (.call request next))) i
          (some (next answer))⟩ :=
      .call i (Function.update_self ..) answered
    rw [Function.update_idem] at step
    exact .head step (ih outcome)

def zeroKey : Wgtypes.Key := ⟨List.replicate 32 0, rfl⟩

theorem creates_key : Trace (KeyEnv true) ⟨none, none⟩ loadOrCreateKey
    [⟨.readFile, .error .notExist⟩, ⟨.generatePrivateKey, .ok zeroKey⟩, ⟨.openExclusive, .ok ()⟩,
      ⟨.writeString zeroKey.string, .ok ()⟩, ⟨.close, .ok ()⟩] (.done zeroKey)
        ⟨some ("" ++ zeroKey.string), some true⟩ :=
  .call (.missing rfl) (.call (.generated _)
    (.call (.created rfl _) (.call (.written rfl rfl) (.call (.closed _) .done))))

theorem loads_key : Trace (KeyEnv false) ⟨some ("" ++ zeroKey.string), some true⟩ loadOrCreateKey
    [⟨.readFile, .ok ("" ++ zeroKey.string)⟩] (.done zeroKey)
      ⟨some ("" ++ zeroKey.string), some true⟩ := by
  have loads : loadKey ("" ++ zeroKey.string) = .done zeroKey := by
    rw [String.empty_append, loadKey, keyOf_string]
    rfl
  refine .call (.read rfl) ?_
  rw [afterRead, loads]
  exact .done

/-- Two processes on a fresh volume: the first creates the key, the second reads it. -/
theorem two_processes_agree : ∃ c : KeyProcesses Bool, c.running true = some (.done zeroKey) ∧
    c.running false = some (.done zeroKey) ∧ c.state.Holds zeroKey ∧
      c.state.file = some zeroKey.string := by
  have first := run_process creates_key fun _ => none
  have second := run_process loads_key (Function.update (fun _ => none) true (some (.done zeroKey)))
  have all := loadOrCreateKey_agrees (.head (.start true) first) (.head (.start false) second)
  have holds := (all.1 true zeroKey rfl).1
  exact ⟨⟨_, Function.update (Function.update _ true _) false _⟩, rfl, rfl, holds,
    all.2.2 rfl zeroKey holds⟩

end TunnelOperator.Sidecar
