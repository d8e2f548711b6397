import GhostText.Host.Perform

/-!
# Starting a run

A run starts with a client and its handlers. An assistant has handlers of its own for what its
server has to say, and beside it there are an editor, fetches, and a controller if one is wanted.
-/

namespace GhostText

structure ClientSetup where
  name : Json
  verbosity : Json
  requests : List (String × HandlerSpec Action)
  notifications : List (String × HandlerSpec Action)

structure EditorSetup where
  text : Json
  filePath : Json
  languageId : Json
  eol : LineBreak

namespace World

def emptyEditor : Editor where
  canvas := ⟨.start [] .lf, ""⟩
  filePath := ""
  languageId := ""
  focused := true
  blocked := false
  listeners := []

/-- A run with nothing but a client without handlers. -/
def bare (processId : Int) (transport : Transport) (name : String) (verbosity : Verbosity) :
    World where
  processId := processId
  transport := transport
  client := .start name verbosity
  hasAssistant := false
  assistant := .start
  editor := emptyEditor
  fetches := .start (.str "") (.str "") (.int 4) (.bool true)
  sessions := []
  controller := none
  host := .start
  startup := none
  events := []

/-- Enters the handlers of a host. -/
def withHandlers (setup : ClientSetup) (w : World) : World :=
  let w := setup.requests.foldl (fun w h => w.handleRequests h.1 h.2) w
  setup.notifications.foldl (fun w h => w.handleNotifications h.1 h.2) w

/-- Enters the handlers of an assistant. -/
def withServerHandlers (w : World) : World :=
  { w with hasAssistant := true }.updateClient fun c =>
    { c with handlers := { c.handlers with
        notifications := [("LogMessage", .serverLog), ("statusNotification", .serverStatus)] } }

/-- A run of a client. -/
def startClient (processId : Int) (transport : Transport) (setup : ClientSetup) : World :=
  let name := Text.trim setup.name.textOrEmpty
  (bare processId transport name (.ofJson setup.verbosity)).withHandlers setup

/-- A run of an assistant. The host's handlers come before its own. -/
def startAssistant (processId : Int) (transport : Transport) (setup : ClientSetup) : World :=
  let w := bare processId transport "Copilot" (.ofJson setup.verbosity)
  w.withServerHandlers.withHandlers setup

def withEditor (setup : EditorSetup) (w : World) : World :=
  w.updateEditor fun e =>
    { e with
      canvas := ⟨.start setup.text.textOrEmpty.toList setup.eol, ""⟩
      filePath := setup.filePath.textOrEmpty
      languageId := setup.languageId.textOrEmpty }

/-- Sets what fetches tell the server; what is not given keeps its default. -/
def withFetches (folder activeFile tabSize insertSpaces : Option Json) (w : World) :
    Except Fault World := do
  let tabSize ← (tabSize.getD (.int 4)).toInteger
  return w.updateFetches fun _ =>
    .start (.str (folder.getD .null).textOrEmpty) (.str (activeFile.getD .null).textOrEmpty)
      (.int tabSize) (.bool (insertSpaces.getD (.bool true)).truthy)

/-- Adds a controller with its settings; null is for the defaults. -/
def withController (settings : Json) (w : World) : Except Fault World := do
  let config ← Config.ofJson (orGiven settings Config.default.toJson)
  return { w with controller := some (.start config w.buffer.text) }

end World

end GhostText
