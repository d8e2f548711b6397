import GhostText.Host.Start
import GhostText.Startup.Arguments

/-!
# Starting from the command line

The settings are read, the server is started, and what it says about the account is printed. The run
ends with an exit code: zero if the account could be told, one if a request failed or the server did
not become ready in time.
-/

namespace GhostText

/-- What a start from the command line finds. -/
structure Surroundings where
  arguments : List String
  home : String
  isDirectory : Text → Bool
  disk : Disk
  processId : Int

/-- How much is logged, by the word in the settings. -/
def Verbosity.level : Verbosity → LogLevel
  | .off => .critical
  | .error => .error
  | .debug => .debug

namespace World

variable (run : Runner)

/-- What happens before the server is reached. -/
def opening (warning : Option String) (config : Config) (w : World) : World :=
  let w := match warning with
    | none => w
    | some text => w.log .warning text
  (w.record (.logLevelChosen config.logging.level)).record (.transportStarted config)

/-- The information about an editor or an extension. -/
def infoJson (name version : String) : Json := .obj [("name", .str name), ("version", .str version)]

def startupHandshake (c : Config) : Handshake where
  editorInfo := infoJson c.editorName c.editorVersion
  pluginInfo := infoJson c.pluginName c.pluginVersion
  onReady := some (.startup .ready)
  onError := some (.startup .failed)

/-- A run that has begun to start. -/
def launched (processId : Int) (transport : Transport) (config : Config) (warning : Option String)
    (signIn : Bool) (folder : String) : World :=
  let w := startAssistant processId transport ⟨.null, .str config.logging.name, [], []⟩
  let w := { w with startup := some ⟨signIn, true, none⟩ }
  let w := w.updateAssistant fun a => a.subscribe .status .terminal
  let w := w.opening warning config
  (handshake run (.str folder) (.str config.trace.name) .null (startupHandshake config) w).2

/-- Begins a start from the command line, with what is left at the place of the settings. -/
def launch (s : Surroundings) (transport : Transport) : Except Fault (World × Disk) := do
  let (args, signIn) := Arguments.split s.arguments
  let (store, disk, warning) := (Store.openAt s.disk : Store Unit × Disk × Option String)
  let config ← store.config
  let folder ←
    match args with
    | [] => pure none
    | path :: _ => Arguments.folder? s.isDirectory s.home path
  return (launched run s.processId transport config warning signIn (folder.getD ""), disk)

/-- Whether the run has an exit code. -/
def hasFinished (w : World) : Bool := w.startup.any fun s => s.exitCode.isSome

/-- The exit code; a run that has not finished has failed. -/
def exitCode (w : World) : Nat := (w.startup.bind Startup.exitCode).getD 1

/-- Bytes that arrive once the run has finished are not looked at. -/
def deliver (bytes : List UInt8) (w : World) : World :=
  if w.hasFinished then w else receive run bytes w

/-- The time in which the server has to become ready is over. -/
def timeOut (w : World) : World :=
  if !w.hasFinished && w.startup.any Startup.waiting then
    (w.log .error "Timed out waiting for Copilot").finishStartup 1
  else w

/-- Lets the answers on their way arrive one after another, and the time run out when there are no
more. -/
def settle : (answers : Nat) → World → World
  | 0, w => w.timeOut
  | n + 1, w =>
    match w.transport.arriving with
    | [] => w.timeOut
    | payload :: rest =>
      let w := { w with transport := { w.transport with arriving := rest } }
      settle n (deliver run (Frame.encode payload) w)

/-- More answers than a start asks for. -/
def answerLimit : Nat := 32

/-- A whole start from the command line over answers that are ready. -/
def startUp (s : Surroundings) (answers : List (String × ReadyAnswer)) (messages : List String) :
    Except Fault (World × Disk) := do
  let run := runTo depthLimit
  let (w, disk) ← launch run s ⟨true, answers, .later, false, []⟩
  return (settle run answerLimit (messages.foldl (fun w t => w.statusMessage t) w), disk)

end World

end GhostText
