import GhostText.Act
import GhostText.Settings.Store
import GhostText.Wire.Message

/-!
# A settings store in use

What a host does with a store and its file, one operation after the other. Listeners are operations
too: the host lists what a listener does and whether it fails, so that a listener may change the
very settings it is told about. A failing listener ends the call that changed the setting; the
change stays.
-/

namespace GhostText

inductive StoreOperation where
  | load
  | save
  /-- Starts over with the file and the usual defaults. -/
  | reopen
  | valueOf (key : String) (fallback : Json)
  | setValue (key : String) (value : Json)
  | data
  | config
  | listen (key label : String) (script : List StoreOperation) (failure : Option Fault)
  | unlisten (label : String)
  | writeFile (bytes : List UInt8)
  | deleteFile
  | showFile
  | makeDirectory
  | blockFolder
  deriving Inhabited

/-- What a listener does when it is told of a change. -/
structure StoreListener where
  label : String
  script : List StoreOperation
  failure : Option Fault

inductive StoreEvent where
  | changed (label key : String) (value : Json)
  | logged (level : LogLevel) (text : String)

structure StoreWorld where
  store : Store StoreListener
  disk : Disk
  events : List StoreEvent
  /-- The last listener of this store under each label. -/
  labels : List (String × Nat)

/-- What an operation answers. -/
inductive StoreReply where
  | nothing
  | value (v : Json)
  | found (v : Json)
  | config (c : Config)
  | fileText (text : Option String)

namespace StoreWorld

def start (disk : Disk) (defaults : Fields) (persistent : Bool) : StoreWorld :=
  ⟨Store.create defaults persistent, disk, [], []⟩

def record (e : StoreEvent) (w : StoreWorld) : StoreWorld := { w with events := w.events ++ [e] }

end StoreWorld

namespace StoreWorld

/-- A way to run the operations of a listener. -/
abbrev Runner := List StoreOperation → Act StoreWorld Unit

/-- Tells the listeners of a key, those that listen when it begins. -/
def tell (run : Runner) (key : String) (value : Json) : Act StoreWorld Unit := do
  for l in (← get).store.listenersOf key do
    modify (StoreWorld.record (.changed l.label key value))
    run l.script
    if let some f := l.failure then throw f

/-- Tells the listeners of every key whose value is not what it was. -/
def tellDifferences (run : Runner) (before : Fields) : Act StoreWorld Unit := do
  for key in (← get).store.keysListenedTo do
    let now := (← get).store.get? key
    if !Store.sameValue (Json.getKey? key (.obj before)) now then
      tell run key (now.getD .null)

def perform (run : Runner) : StoreOperation → Act StoreWorld StoreReply
  | .load => do
    let w ← get
    match w.store.readFrom w.disk with
    | .refused s => set { w with store := s }
    | .taken s =>
      set { w with store := s }
      tellDifferences run w.store.data
    return .value (.obj (← get).store.data)
  | .save => do
    let w ← get
    match w.store.save w.disk with
    | .error f => throw f
    | .ok (disk, s) =>
      set { w with store := s, disk := disk }
      return .fileText disk.text?
  | .reopen => do
    let w ← get
    let (s, disk, warning) := Store.openAt w.disk
    set { w with store := s, disk := disk, labels := [] }
    if let some text := warning then modify (StoreWorld.record (.logged .warning text))
    return .value (.obj s.data)
  | .valueOf key fallback => do return .found (((← get).store.get? key).getD fallback)
  | .setValue key value => do
    let w ← get
    match w.store.put? key value with
    | .error f => throw f
    | .ok none => return .value (.bool false)
    | .ok (some s) =>
      set { w with store := s }
      tell run key value
      return .value (.bool true)
  | .data => do return .value (.obj (← get).store.data)
  | .config => do
    match (← get).store.config with
    | .error f => throw f
    | .ok c => return .config c
  | .listen key label script failure => do
    let w ← get
    let (number, s) := w.store.listen key ⟨label, script, failure⟩
    set { w with store := s, labels := (label, number) :: w.labels }
    return .nothing
  | .unlisten label => do
    if let some number := (← get).labels.lookup label then
      modify fun w => { w with store := w.store.unlisten number }
    return .nothing
  | .writeFile bytes => do
    modify fun w => { w with disk := { w.disk with place := .file bytes } }
    return .nothing
  | .deleteFile => do
    modify fun w => { w with disk := { w.disk with place := .nothing } }
    return .nothing
  | .showFile => do return .fileText (← get).disk.text?
  | .makeDirectory => do
    modify fun w => { w with disk := { w.disk with place := .directory } }
    return .nothing
  | .blockFolder => do
    modify fun w => { w with disk := { w.disk with place := .blocked } }
    return .nothing

/-- Runs the operations of listeners, which may make listeners run again, to a depth. -/
def runScript : (depth : Nat) → Runner
  | 0, _ => throw .tooDeep
  | depth + 1, ops => ops.forM fun op => discard (perform (runScript depth) op)

/-- How deeply listeners may make one another run. -/
def depthLimit : Nat := 200

/-- One operation of the host. -/
def step (op : StoreOperation) (w : StoreWorld) : Except Fault StoreReply × StoreWorld :=
  (perform (runScript depthLimit) op).runFrom w

end StoreWorld

end GhostText
