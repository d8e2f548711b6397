import GhostText.Act
import GhostText.Assistant.Status
import GhostText.Client.Basic
import GhostText.Editor.Artifact
import GhostText.Settings.Store
import GhostText.Suggestion.Control
import GhostText.Suggestion.Fetch
import GhostText.Suggestion.Session

/-!
# The state of a run

Everything there is while the program runs, and the list of what it has done so far. Nothing is ever
decided by looking at that list.
-/

namespace GhostText

/-- What a listener is told. -/
inductive Signal where
  | serverStarted (result : Json)
  | assistantStarted (result : Json)
  | notificationReceived (method : String) (params : Json)
  | statusMessage (text : String)
  | trafficLogged (direction text : String)
  | progressReceived (token value : Json)
  | statusChanged (old new : Status)
  | aboutToChange (origin : String)
  | contentChanged
  | cursorMoved
  | sessionStarted (uuid : String)
  | sessionFinished (uuid : String) (state : SessionState) (reason : String)
  | sessionSettled (uuid : String) (state : SessionState)

/-- What a callback is handed. -/
inductive Outcome where
  | reply (r : Reply)
  | fault (f : Fault)
  | completion (c : Completion)

/-- A message of the peer as its handler sees it, and whether the peer has cancelled it. -/
structure ContextView where
  context : Context
  cancelled : Bool

/-- Something the program has done. -/
inductive Event where
  | sent (payload : Json)
  | logged (level : LogLevel) (text : String)
  /-- A listener failed; whoever told it does not notice. -/
  | uncaught (f : Fault)
  | transportStopped
  | handled (method : String) (params id : Json) (isRequest : Bool)
  | calledBack (label : String) (kind : CallbackKind) (outcome : Outcome)
  | transformed (value : Json)
  | contextViewed (view : ContextView)
  | told (label : String) (notice : Notice)
  | signalled (s : Signal)
  | printed (line : String)
  | logLevelChosen (level : LogLevel)
  | transportStarted (config : Config)

/-- An answer that is ready before the request is made. -/
inductive ReadyAnswer where
  | result (v : Json)
  | error (v : Json)

def ReadyAnswer.payload (id : Json) : ReadyAnswer → Json
  | .result v => .obj [("jsonrpc", .str "2.0"), ("id", id), ("result", v)]
  | .error v => .obj [("jsonrpc", .str "2.0"), ("id", id), ("error", v)]

/-- When ready answers arrive: while the request is being written, or when the event loop comes to
them. -/
inductive Arrival where
  | atOnce
  | later
  deriving DecidableEq, Repr

structure Transport where
  accepting : Bool
  answers : List (String × ReadyAnswer)
  arrival : Arrival
  /-- A write that was answered at once is reported as refused. -/
  refusesAnswered : Bool
  /-- Answers on their way. -/
  arriving : List Json

namespace Transport

/-- The answer that is ready for a request. -/
def answerTo? (payload : Json) (t : Transport) : Option Json :=
  match payload.field? "id", payload.field? "method" with
  | some id, some (.str method) => (t.answers.lookup method).map (ReadyAnswer.payload id)
  | _, _ => none

end Transport

/-- The settings store a controller follows, and the listeners that follow it. -/
structure Binding where
  store : Store Unit
  listeners : List Nat

/-- What a host has kept. -/
structure Host where
  /-- Messages that handlers kept for later. -/
  deferred : List Nat
  /-- The scripts of the subscribers, each as it was when its label was first used. -/
  subscribers : List (String × Script)
  snapshots : List (List Snapshot)
  artifacts : List Artifact
  binding : Option Binding

def Host.start : Host := ⟨[], [], [], [], none⟩

structure Editor where
  canvas : Canvas
  filePath : String
  languageId : String
  focused : Bool
  /-- While the signals are blocked nobody is told anything. -/
  blocked : Bool
  /-- The sessions that listen, in the order in which they were started. -/
  listeners : List Nat

/-- How a start from the command line stands. -/
structure Startup where
  signIn : Bool
  /-- The timer that ends a start that takes too long. -/
  waiting : Bool
  exitCode : Option Nat
  deriving DecidableEq, Repr

structure World where
  /-- The number of the running process, as the server is told it. -/
  processId : Int
  transport : Transport
  client : Client
  /-- Whether the client is that of an assistant. -/
  hasAssistant : Bool
  assistant : Assistant
  editor : Editor
  fetches : Fetches
  sessions : List Session
  controller : Option Controller
  host : Host
  startup : Option Startup
  events : List Event

namespace World

def record (e : Event) (w : World) : World := { w with events := w.events ++ [e] }

def signal (s : Signal) (w : World) : World := w.record (.signalled s)

/-- A log record of its own part of the program. -/
def log (level : LogLevel) (text : String) (w : World) : World := w.record (.logged level text)

/-- A log record of the client, kept if its level is. -/
def clientLog (level : LogLevel) (text : String) (w : World) : World :=
  if w.client.logs level then w.log level (w.client.logTag ++ " " ++ text) else w

def updateClient (f : Client → Client) (w : World) : World := { w with client := f w.client }

def updateAssistant (f : Assistant → Assistant) (w : World) : World :=
  { w with assistant := f w.assistant }

def updateEditor (f : Editor → Editor) (w : World) : World := { w with editor := f w.editor }

def updateCanvas (f : Canvas → Canvas) (w : World) : World :=
  w.updateEditor fun e => { e with canvas := f e.canvas }

def updateBuffer (f : Buffer → Buffer) (w : World) : World :=
  w.updateCanvas fun c => { c with buffer := f c.buffer }

def updateFetches (f : Fetches → Fetches) (w : World) : World := { w with fetches := f w.fetches }

def updateHost (f : Host → Host) (w : World) : World := { w with host := f w.host }

def updateController (f : Controller → Controller) (w : World) : World :=
  { w with controller := w.controller.map f }

def updateStartup (f : Startup → Startup) (w : World) : World :=
  { w with startup := w.startup.map f }

def updateSession (n : Nat) (f : Session → Session) (w : World) : World :=
  { w with sessions := w.sessions.modify n f }

def session? (n : Nat) (w : World) : Option Session := w.sessions[n]?

def canvas (w : World) : Canvas := w.editor.canvas

def buffer (w : World) : Buffer := w.editor.canvas.buffer

/-- Tells a listener something; its failure stops here. -/
def tell (x : Act World Unit) (w : World) : World :=
  match x w with
  | (.ok _, w) => w
  | (.error f, w) => w.record (.uncaught f)

/-- Runs a callback; the client takes note of its failure. -/
def callBack (x : Act World Unit) (w : World) : World :=
  match x w with
  | (.ok _, w) => w
  | (.error _, w) => w.clientLog .error "Response callback raised"

end World

/-- What is run on behalf of others: a script, in the context of a message if there is one, and
bytes that arrive while something else is being done. -/
inductive Invocation where
  | script (context : Option Nat) (actions : Script)
  | deliver (bytes : List UInt8)

/-- A way to run what is run on behalf of others. Whatever it does, it may do while something else
is being done. -/
abbrev Runner := Invocation → Act World Unit

end GhostText
