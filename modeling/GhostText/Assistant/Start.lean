import GhostText.Assistant.Request
import GhostText.Text.Blank

/-!
# Starting the server

The server is asked to start; once it has, it is told so and told who it is talking to, and at last
it is asked for its version. What each of these steps does is here; that they follow one another is
the matter of the calls' answers.
-/

namespace GhostText.World

variable (run : Runner)

/-- What the server is told at first. -/
def startParams (processId : Int) (trace folder : String) : Json :=
  .obj ([("processId", .int processId),
      ("capabilities", .obj [("workspace", .obj [("workspaceFolders", .bool true)])]),
      ("trace", .str trace)] ++
    if folder.isEmpty then []
    else
      let uri := Json.str (FileUri.ofPath folder)
      let name := String.ofList (Path.folderName folder.toList folder.toList)
      [("rootUri", uri), ("workspaceFolders", .arr [.obj [("uri", uri), ("name", .str name)]])])

/-- The server has started: what it can do holds from now on, and everybody is told. -/
def serverStarted (result : Json) (w : World) : World :=
  let result := if result.isObject then result else .obj []
  let capabilities := result.fieldD "capabilities"
  let capabilities := if capabilities.isObject then capabilities else .obj []
  let w := w.updateClient fun c => { c with capabilities := capabilities, isInitialized := true }
  if w.hasAssistant then
    tellSubscribers run (.serverStarted result) (w.signal (.assistantStarted result))
  else w.signal (.serverStarted result)

def sendInitialized (w : World) : World := w.notify "initialized" (.obj [])

/-- How the editor and its extension are called where nobody says so. -/
def defaultInfo : Json := .obj [("name", .str "copilot-bridge"), ("version", .str "0.1.0")]

def reactions (r : Option Reaction) : List Continuation := r.toList.map .reaction

/-- Once the server has started it is told so, and who it is talking to. -/
def afterStart (h : Handshake) : Act World Unit := fun w =>
  let r := setEditorInfo run (h.editorInfo.orElse defaultInfo) (h.pluginInfo.orElse defaultInfo)
    [.afterEditorInfo h] (reactions h.onError) w.sendInitialized
  (r.1.map fun _ => (), r.2)

def afterEditorInfo (h : Handshake) (w : World) : World :=
  (getVersion run (reactions h.onReady) (reactions h.onError) w).2

end GhostText.World
