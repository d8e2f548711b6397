import GhostText.Document.Unchecked
import GhostText.Wire.Message

/-!
# What a host does

A host is given as data. Its callbacks, handlers and subscribers are scripts, lists of actions under
a label, so whatever a host may do it may also do from inside a callback, at any depth. The actions
are grouped by the part of the program they are about.
-/

namespace GhostText

/-- A callback is noted under its label, then its script runs. -/
structure Callback (α : Type) where
  label : String
  script : List α
  deriving Inhabited

/-- The callbacks for the outcome of a call. -/
structure Reactions (α : Type) where
  onResult : Option (Callback α)
  onError : Option (Callback α)
  deriving Inhabited

/-- What a host makes of a result before it is handed on. -/
inductive HostTransform where
  | wrap (key : String)
  | refuse (f : Fault)

/-- What a host may put in the place of a handler. -/
inductive HandlerSpec (α : Type) where
  | absent
  /-- The handler of the protocol itself. -/
  | reserved
  | plain (script : List α)
  /-- A handler for requests that says whether it changes anything. -/
  | declared (kind : Json) (script : List α)
  deriving Inhabited

/-- What a handler does with the message it was called for. -/
inductive ContextAction where
  | succeed (value : Json)
  | reject (code message : Json) (data : Option Json)
  | suppressLogging
  /-- Keeps the message for later. -/
  | defer
  | log (level : LogLevel) (text : String)
  | send (m : Outgoing)
  | view

inductive ClientAction (α : Type) where
  | request (kind method params : Json) (reactions : Reactions α) (transform : Option HostTransform)
  | notify (method params : Json)
  | send (m : Outgoing)
  | cancelRequest (id : Json)
  | cancelCall (id : Nat)
  | showCall (id : Nat)
  | andThen (id : Nat) (reactions : Reactions α)
  | receive (bytes : List UInt8)
  | handleRequests (method : Json) (handler : HandlerSpec α)
  | handleNotifications (method : Json) (handler : HandlerSpec α)
  | removeHandler (method : Json)
  | resolve (method : String)
  | acceptWrites (accept : Bool)
  | startServer (params : Json) (reactions : Reactions α)
  | shutdown (reactions : Reactions α)
  | sendInitialized
  | traceAt (level : Json)
  | exit
  | openDocument (uri languageId version text : Json)
  | changeDocument (uri version changes : Json)
  | closeDocument (uri : Json)
  | changeFolders (added removed : Json)
  | close
  | stopTransport
  | transportStatus (text : String)
  | verbosity (level : Json)
  | logTraffic (enabled : Json)
  | capabilities
  | registrations

/-- What a request for completions is about. Null is for what is not given. -/
structure CompletionOptions where
  position : UncheckedPosition
  tabSize : Json := .int 4
  indentSize : Json := .null
  insertSpaces : Json := .bool true
  path : Json := .str ""
  uri : Json := .null
  relativePath : Json := .null
  languageId : Json := .str ""
  version : Json := .null

inductive AssistantAction (α : Type) where
  | version (reactions : Reactions α)
  | checkStatus (localOnly : Json) (reactions : Reactions α)
  | signIn (reactions : Reactions α)
  | confirmSignIn (code : Json) (reactions : Reactions α)
  | signOut (reactions : Reactions α)
  | editorInfo (editor plugin : Json) (reactions : Reactions α)
  | completions (options : CompletionOptions) (cycling : Bool) (reactions : Reactions α)
  | completionParams (options : CompletionOptions)
  | notifyShown (uuid : Json)
  | notifyAccepted (uuid : Json)
  | notifyRejected (uuids : Json)
  | accountStatus (status : Json)
  | requestActivity (busy : Bool)
  | subscribe (event : Json) (label : String) (script : List α)
  | unsubscribe (event : Json) (label : String)
  | handshake (folder editor plugin trace processId : Json) (onReady onError : Option (Callback α))
  | openDocument (uri languageId text : Json)
  | changeDocument (uri text changes : Json)

/-- Attributes of the fetches to come; what is not given stays as it is. -/
structure FetchSettings where
  workspaceFolder : Option Json
  activeFile : Option Json
  languageId : Option Json
  tabSize : Option Json
  insertSpaces : Option Json

inductive TaskAction (α : Type) where
  | start (position : UncheckedPosition) (onCompletion : Option (Callback α))
  | cancel (id : Json)
  | cancelAll
  | configure (settings : FetchSettings)

inductive EditorAction where
  | type (text : Json)
  | insert (text : Json) (origin : String)
  | replace (range : UncheckedRange) (text : Json) (origin : String)
  | move (position : UncheckedPosition)
  | key (key : Json)
  | toggleMode (entering : Bool)
  | undo
  | focus (focused : Bool)
  | filePath (path : Json)
  | snapshot
  | restore (index : Option Nat)
  | panel (text : String)
  | blockSignals (blocked : Bool)
  | showSuggestion (completion : Json) (inline : Bool)
  | findArtifact (index : Nat)
  | removeArtifact (index : Nat)

inductive SessionAction where
  | create (completion : Json) (inline : Bool) (acceptKey : Json) (withTasks : Bool)
  | view (index : Nat)
  | start (index : Nat)
  | accept (index : Nat)
  | reject (index : Nat) (reason : Json)

inductive ControllerAction where
  | openDocument
  | switchFile (newPath oldPath : Json)
  | switchFolder (newFolder oldFolder : Json)
  | accept
  | reject (reason : Json)
  | present (completion : Json)
  | flush
  | requestCompletion
  | updateSettings (settings : Json)
  | config
  | bindSettings (initial : Fields)
  | storeValue (key : String) (value : Json)
  | unbind
  | shutdown
  /-- The event loop gets its turn. -/
  | tick

inductive Action where
  /-- Acts on a message that a handler kept for later. -/
  | within (deferred : Nat) (a : Action)
  | raise (f : Fault)
  | context (a : ContextAction)
  | client (a : ClientAction Action)
  | assistant (a : AssistantAction Action)
  | task (a : TaskAction Action)
  | editor (a : EditorAction)
  | session (a : SessionAction)
  | controller (a : ControllerAction)

instance : Inhabited Action := ⟨.client .exit⟩

abbrev Script := List Action

end GhostText
