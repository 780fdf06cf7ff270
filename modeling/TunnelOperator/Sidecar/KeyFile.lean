import TunnelOperator.Library.Interleaving
import TunnelOperator.Standard.Base64
import TunnelOperator.Standard.Strings
import Mathlib.Logic.Relation

/-! internal/sidecar/key.go: the private key of a pod, read from its file or created
there. The processes of all restarts share the file, and each may stop anywhere. -/
namespace TunnelOperator.Sidecar
open Program

/-- `openExclusive` is OpenFile with O_WRONLY, O_CREATE and O_EXCL. -/
inductive KeyCall where
  | readFile
  | generatePrivateKey
  | openExclusive
  | writeString (text : String)
  | close

inductive ReadError where
  | notExist
  | other (message : String)

abbrev KeyAnswer : KeyCall → Type
  | .readFile => Except ReadError String
  | .generatePrivateKey => Except String Wgtypes.Key
  | .openExclusive | .writeString _ | .close => Except String Unit

/-- The message of ParseKey is not kept. A write may fail with that of the write, of the
close or of both. -/
inductive KeyError where
  | noValidKey
  | read (message : String)
  | generate (message : String)
  | write (messages : List String)

def KeyError.text (path : String) : KeyError → String
  | .noValidKey => "key file " ++ path ++ " holds no valid WireGuard key"
  | .read message => "read key " ++ path ++ ": " ++ message
  | .generate message => "generate key: " ++ message
  | .write messages => "\n".intercalate
    (messages.map fun message => "write key " ++ path ++ ": " ++ message)

abbrev KeyLoader := Program KeyCall KeyAnswer KeyError Wgtypes.Key

/-- What a key file is read as. -/
def keyOf (content : String) : Option Wgtypes.Key := Wgtypes.parseKey (Strings.trimSpace content)

/-- The deferred close runs after the write, whatever that returned. -/
def afterClose (key : Wgtypes.Key) (written closed : Except String Unit) : KeyLoader :=
  match written, closed with
  | .ok _, .ok _ => return key
  | .ok _, .error cerr => .fail (.write [cerr])
  | .error err, .ok _ => .fail (.write [err])
  | .error err, .error cerr => .fail (.write [err, cerr])

def closeKey (key : Wgtypes.Key) (written : Except String Unit) : KeyLoader :=
  .call .close (afterClose key written)

def writeKey (key : Wgtypes.Key) : KeyLoader := .call (.writeString key.string) (closeKey key)

def afterOpen (key : Wgtypes.Key) : Except String Unit → KeyLoader
  | .ok _ => writeKey key
  | .error err => .fail (.write [err])

def createKeyFile (key : Wgtypes.Key) : KeyLoader := .call .openExclusive (afterOpen key)

def afterGenerate : Except String Wgtypes.Key → KeyLoader
  | .ok key => createKeyFile key
  | .error err => .fail (.generate err)

def createKey : KeyLoader := .call .generatePrivateKey afterGenerate

def loadKey (content : String) : KeyLoader :=
  match keyOf content with
  | some key => return key
  | none => .fail .noValidKey

def afterRead : Except ReadError String → KeyLoader
  | .ok content => loadKey content
  | .error .notExist => createKey
  | .error (.other message) => .fail (.read message)

def loadOrCreateKey : KeyLoader := .call .readFile afterRead

/-- The file, and the process that created it and has it open. -/
structure KeyVolume (ι : Type) where
  file : Option String
  writer : Option ι

variable {ι : Type}

/-- A file is created only where none is. A write by the process that has the file open
adds a leading part of the text, and the whole of it when it succeeds. -/
inductive KeyEnv (i : ι) (v : KeyVolume ι) : (request : KeyCall) → KeyAnswer request →
    KeyVolume ι → Prop where
  | read (there : v.file = some content) : KeyEnv i v .readFile (.ok content) v
  | missing (absent : v.file = none) : KeyEnv i v .readFile (.error .notExist) v
  | unread (message : String) : KeyEnv i v .readFile (.error (.other message)) v
  | generated (answer : KeyAnswer .generatePrivateKey) : KeyEnv i v .generatePrivateKey answer v
  | created (absent : v.file = none) (answer : KeyAnswer .openExclusive) :
      KeyEnv i v .openExclusive answer ⟨some "", some i⟩
  | uncreated (message : String) : KeyEnv i v .openExclusive (.error message) v
  | written (there : v.file = some content) (mine : v.writer = some i) :
      KeyEnv i v (.writeString text) (.ok ()) { v with file := some (content ++ text) }
  | partly (there : v.file = some content) (mine : v.writer = some i)
      (piece : written.toList <+: text.toList) (message : String) :
      KeyEnv i v (.writeString text) (.error message) { v with file := some (content ++ written) }
  | closed (answer : KeyAnswer .close) : KeyEnv i v .close answer v

abbrev KeyProcesses (ι : Type) := Threads ι (KeyVolume ι) KeyCall KeyAnswer KeyError Wgtypes.Key

/-- Every process runs loadOrCreateKey. It may be started again and may stop between any
two calls, and nobody else touches the file. -/
abbrev KeyStep [DecidableEq ι] : KeyProcesses ι → KeyProcesses ι → Prop :=
  Threads.Step KeyEnv (fun _ => loadOrCreateKey) fun _ _ => False

/-! Texts. -/

theorem keyOf_string (key : Wgtypes.Key) : keyOf key.string = some key := by
  have plain : ∀ c ∈ key.string.toList, Strings.isSpace c = false := by
    rw [Wgtypes.Key.string, String.toList_ofList]
    refine Base64.encode_forall (fun n small => ?_) (by decide) _
    interval_cases n <;> rfl
  rw [keyOf, Strings.trimSpace_of_none plain, Wgtypes.parseKey_string]

theorem keyOf_empty : keyOf "" = none := by decide

/-- A key that was not written whole is not read as a key. -/
theorem keyOf_piece {key found : Wgtypes.Key} {piece : String}
    (part : piece.toList <+: key.string.toList)
    (parsed : keyOf piece = some found) : piece = key.string := by
  have long := (Wgtypes.parseKey_length parsed).trans (Strings.trimSpace_length piece)
  have whole := part.eq_of_length_le (key.string_length ▸ long)
  exact String.toList_inj.mp whole

end TunnelOperator.Sidecar
