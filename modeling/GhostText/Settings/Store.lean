import GhostText.Json.Path
import GhostText.Json.Printer
import GhostText.Settings.Config
import GhostText.Text.Utf8

/-!
# Settings store

Settings kept in a file, with defaults for what the file does not say and with listeners for single
keys. Loading takes all of a file or, when it cannot be read, nothing; the file is written by saving
alone. A listener is a value of the caller's choosing, told apart from others by a number.
-/

namespace GhostText

/-- What stands at the place of the settings file. -/
inductive Place where
  | nothing
  | file (bytes : List UInt8)
  /-- A file that may be neither read nor written. -/
  | locked
  | directory
  /-- The folder of the file is itself a file. -/
  | blocked
  deriving DecidableEq, Repr

/-- A settings file: its path, the path of its folder, and what stands there. -/
structure Disk where
  path : String
  folder : String
  place : Place
  deriving DecidableEq, Repr

namespace Disk

def isDirectoryMessage (path : String) : String := "[Errno 21] Is a directory: '" ++ path ++ "'"

def deniedMessage (path : String) : String := "[Errno 13] Permission denied: '" ++ path ++ "'"

def fileExistsMessage (path : String) : String := "[Errno 17] File exists: '" ++ path ++ "'"

/-- There is something at the place of the file, of use or not. -/
def hasFile (d : Disk) : Bool :=
  match d.place with
  | .file _ => true
  | .locked => true
  | .directory => true
  | _ => false

/-- Every line break becomes a line feed. -/
def plainBreaks : Text → Text
  | [] => []
  | '\r' :: '\n' :: t => '\n' :: plainBreaks t
  | '\r' :: t => '\n' :: plainBreaks t
  | c :: t => c :: plainBreaks t

/-- The object in the file, or why there is none. -/
def readObject (d : Disk) : Except String Fields :=
  match d.place with
  | .file bytes =>
    match Text.Utf8.decodeStrict bytes with
    | .error f => .error f.message
    | .ok text =>
      match Json.read (plainBreaks text) with
      | .error e => .error e.message
      | .ok (.obj fields) => .ok fields
      | .ok v => .error ("Settings root in '" ++ d.path ++ "' must be a JSON object, found " ++
          v.kindName ++ ".")
  | .locked => .error (deniedMessage d.path)
  | _ => .error (isDirectoryMessage d.path)

/-- Writes the file, making its folder if there is none. -/
def writeText (text : String) (d : Disk) : Except String Disk :=
  match d.place with
  | .blocked => .error (fileExistsMessage d.folder)
  | .locked => .error (deniedMessage d.path)
  | .directory => .error (isDirectoryMessage d.path)
  | _ => .ok { d with place := .file (Text.Utf8.encodeString text) }

/-- The text of the file as far as it is one. -/
def text? (d : Disk) : Option String :=
  match d.place with
  | .file bytes => some (String.ofList (Text.Utf8.decode bytes))
  | _ => none

end Disk

/-- The listeners of one key, in the order in which they came. -/
structure KeyListeners (α : Type) where
  key : String
  listeners : List (Nat × α)

structure Store (α : Type) where
  defaults : Fields
  data : Fields
  dirty : Bool
  lastError : Option String
  persistent : Bool
  subscriptions : List (KeyListeners α)
  nextListener : Nat

namespace Store

variable {α : Type}

def create (defaults : Fields) (persistent : Bool) : Store α :=
  ⟨defaults, Json.mergeFields [] defaults, false, none, persistent, [], 0⟩

/-- The value under a dotted key. -/
def get? (key : String) (s : Store α) : Option Json := Json.getKey? key (.obj s.data)

def config (s : Store α) : Except Fault Config := Config.ofJson (.obj s.data)

/-- Equality of what stands under a key. A value with a `NaN` in it never counts as the one that is
there already. -/
def sameValue : Option Json → Option Json → Bool
  | none, none => true
  | some v, some w => v.same w
  | _, _ => false

/-- The store with a value under a key, or nothing if that value is there already. -/
def put? (key : String) (value : Json) (s : Store α) : Except Fault (Option (Store α)) :=
  if sameValue (s.get? key) (some value) then .ok none
  else (Json.setKey key value s.data).map fun data => some { s with data := data, dirty := true }

/-- The listeners of a key. -/
def listenersOf (key : String) (s : Store α) : List α :=
  match s.subscriptions.find? fun b => b.key == key with
  | some b => b.listeners.map Prod.snd
  | none => []

def keysListenedTo (s : Store α) : List String := s.subscriptions.map KeyListeners.key

def addListener (key : String) (l : Nat × α) : List (KeyListeners α) → List (KeyListeners α)
  | [] => [⟨key, [l]⟩]
  | b :: bs =>
    if b.key = key then { b with listeners := b.listeners ++ [l] } :: bs
    else b :: addListener key l bs

/-- Adds a listener and returns its number. -/
def listen (key : String) (listener : α) (s : Store α) : Nat × Store α :=
  (s.nextListener,
    { s with
      subscriptions := addListener key (s.nextListener, listener) s.subscriptions
      nextListener := s.nextListener + 1 })

/-- Takes a listener away; its key is kept. -/
def unlisten (number : Nat) (s : Store α) : Store α :=
  { s with
    subscriptions := s.subscriptions.map fun b =>
      { b with listeners := b.listeners.filter fun l => l.1 != number } }

/-- The outcome of reading the file: settings that hold from now on, or those from before with the
reason why the file could not be used. -/
inductive Loaded (α : Type) where
  | taken (s : Store α)
  | refused (s : Store α)

/-- Reads the file. A missing file, and any file for a store that is not kept in one, has no
settings of its own. -/
def readFrom (disk : Disk) (s : Store α) : Loaded α :=
  if s.persistent && disk.hasFile then
    match disk.readObject with
    | .error reason => .refused { s with lastError := some reason }
    | .ok fields =>
      .taken { s with
        data := Json.mergeFields fields s.defaults, dirty := false, lastError := none }
  else
    .taken { s with
      data := Json.mergeFields [] s.defaults, dirty := s.persistent, lastError := none }

/-- Writes the settings to the file. -/
def save (disk : Disk) (s : Store α) : Except Fault (Disk × Store α) :=
  if !s.persistent then .ok (disk, { s with dirty := false })
  else
    match disk.writeText (Json.page (.obj s.data)) with
    | .error reason => .error (.cannotSave disk.path reason)
    | .ok disk => .ok (disk, { s with dirty := false, lastError := none })

/-- Opens the store of a file with the usual defaults. The file is written only if there was none; a
file that cannot be used, or a folder that cannot be written, makes a warning. -/
def openAt (disk : Disk) : Store α × Disk × Option String :=
  match (create Config.default.fields true : Store α).readFrom disk with
  | .refused s => (s, disk, s.lastError.map ("Ignoring unreadable settings file: " ++ ·))
  | .taken s =>
    if s.dirty then
      match s.save disk with
      | .ok (disk, s) => (s, disk, none)
      | .error f => (s, disk, some f.message)
    else (s, disk, none)

end Store

end GhostText
