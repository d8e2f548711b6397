import GhostText.Assistant.Request
import GhostText.Suggestion.Accept

/-!
# Keeping the server's document in step

The controller opens the document, tells the server of its changes once they have waited long
enough, and asks for a completion after each of them. A change is told as edits where the server
wants that, and else as the whole text.
-/

namespace GhostText.World

variable (run : Runner)

/-- The text the server has, once it was told all of it. -/
def markOpened (text : Text) (w : World) : World :=
  w.updateController fun c => { c with latest := text, synced := text }

/-- Nothing waits to be told any more. -/
def dropChange (w : World) : World :=
  w.updateController fun c => { c with pending := none, timer := none }

/-- Opens the editor's document under a path. -/
def openPath (path : Json) : Act World Unit := fun w =>
  let languageId := Json.str w.editor.languageId
  let w := w.updateFetches fun t =>
    { t with activeFile := .str path.shown, languageId := languageId }
  let text := w.buffer.text
  match uriOf path with
  | .error f => (.error f, w)
  | .ok uri =>
    (.ok (), (w.openAtZero (.str uri) languageId (.str (String.ofList text))).markOpened text)

def openDocument : Act World Unit := fun w =>
  if w.editor.filePath.isEmpty then (.ok (), w) else openPath (.str w.editor.filePath) w

/-- Closes the document of a path, if one is given. -/
def closePath (path : Json) : Act World Unit := fun w =>
  if !path.truthy then (.ok (), w)
  else
    match uriOf path with
    | .error f => (.error f, w)
    | .ok uri => (.ok (), w.didClose (.str uri))

/-- Goes over from one file to another; what waited to be told about the old one is dropped. -/
def switchFile (newPath oldPath : Json) : Act World Unit := fun w =>
  match closePath oldPath (w.rejectCurrent "superseded").2 with
  | (.error f, w) => (.error f, w)
  | (.ok (), w) =>
    let w := w.dropChange
    if newPath.truthy then openPath newPath w else (.ok (), w)

/-- A folder as the server is told it. -/
def folderEntry (folder : Json) : Except Fault (List Json) :=
  if !folder.truthy then .ok []
  else do
    let uri ← uriOf folder
    let path := Path.withoutTrailingSlashes folder.shown.toList
    return [.obj [("uri", .str uri), ("name", .str (String.ofList (Path.folderName path path)))]]

def switchFolder (newFolder oldFolder : Json) : Act World Unit := fun w =>
  let w := w.updateFetches fun t => { t with workspaceFolder := .str newFolder.textOrEmpty }
  match folderEntry newFolder, folderEntry oldFolder with
  | .error f, _ => (.error f, w)
  | _, .error f => (.error f, w)
  | .ok added, .ok removed => didChangeFolders (.arr added) (.arr removed) w

/-! ## Telling changes -/

/-- How the server wants to be told of changes: two is for edits. What is no number is none. -/
def syncKind (capabilities : Json) : Except Fault Int :=
  let sync := capabilities.fieldD "textDocumentSync"
  let sync := if sync.isObject then sync.fieldD "change" else sync
  match sync.integerOrZero with
  | .ok n => .ok n
  | .error f => if f.kind = .value ∨ f.kind = .type then .ok 0 else .error f

/-- The edits that lead from the server's text to the one that waits, if the server wants edits. -/
def editsFor (c : Controller) (change : PendingChange) (w : World) :
    Except Fault (Option (List TextChange)) := do
  if (← syncKind w.client.capabilities) ≠ 2 then return none
  return some (Diff.changes c.config.eol.text c.synced change.text (some (.position change.caret)))

/-- The changes as they are sent. -/
def contentChanges (change : PendingChange) : Option (List TextChange) → Json
  | none => wholeText (String.ofList change.text)
  | some edits => .arr (Diff.inTurn edits)

def logEdits (edits : Option (List TextChange)) (w : World) : World :=
  match edits with
  | none => w
  | some edits => w.log .debug ("Sending " ++ toString edits.length ++ " incremental change(s)")

/-- Gives up the fetches under way and asks for a completion at the caret. -/
def requestCompletion : Act World Nat := fun w =>
  let w := cancelFetches run w
  startFetch run w.buffer.caretPosition.unchecked .controller w

/-- The URI of the document that changes are about. -/
def documentUri (w : World) : Except Fault String :=
  let path := w.fetches.activeFile.orElse (.str w.editor.filePath)
  if path.truthy then uriOf path else .ok ""

/-- Tells the server of the change that waits, and asks for a completion. -/
def tellChange : Act World Unit := fun w =>
  match w.controller with
  | none => (.ok (), w)
  | some c =>
    let w := w.updateController fun c => { c with pending := none }
    match c.pending with
    | none => (.ok (), w)
    | some change =>
      match documentUri w, editsFor c change w with
      | .error f, _ => (.error f, w)
      | _, .error f => (.error f, w)
      | .ok uri, .ok edits =>
        match changeVersion (.str uri) (contentChanges change edits) (w.logEdits edits) with
        | (.error f, w) => (.error f, w)
        | (.ok _, w) =>
          let w := w.updateController fun c => { c with synced := change.text }
          match requestCompletion run w with
          | (.error f, w) => (.error f, w)
          | (.ok _, w) => (.ok (), w)

/-- Tells the server of the change that waits without waiting for the timer. -/
def flush : Act World Unit := fun w =>
  if w.controller.any fun c => c.pending.isSome then
    tellChange run (w.updateController fun c => { c with timer := none })
  else (.ok (), w)

/-- The event loop gets its turn: a timer without a delay has run out. -/
def tick (w : World) : World :=
  if w.controller.any fun c => c.timer = some 0 then
    (w.updateController fun c => { c with timer := none }).tell (tellChange run)
  else w

/-! ## Settings -/

/-- Takes on a configuration. Without completions nothing is shown, fetched or told. -/
def configure (config : Config) (w : World) : World :=
  let w := w.updateController fun c => { c with config := config }
  let w := w.updateFetches fun t =>
    { t with tabSize := .int config.tabSize, insertSpaces := .bool config.insertSpaces }
  if config.disableCompletions then
    (cancelFetches run (w.rejectCurrent "superseded").2).dropChange
  else w

def updateSettings (settings : Json) : Act World Unit := fun w =>
  match Config.ofJson settings with
  | .error f => (.error f, w)
  | .ok config => (.ok (), configure run config w)

/-- Makes a store follow the settings that hold at first. -/
def storeWith (initial : Fields) : Except Fault (Store Unit) :=
  initial.foldlM (fun s f => do return (← s.put? f.1 f.2).getD s)
    (Store.create Config.default.fields false)

/-- Listens to every setting there is. -/
def listenToAll (s : Store Unit) : List Nat × Store Unit :=
  Config.default.fields.foldl
    (fun r f =>
      let l := r.2.listen f.1 ()
      (r.1 ++ [l.1], l.2))
    ([], s)

/-- Follows the settings of a new store, from now on and at every change of one of them. -/
def bindSettings (initial : Fields) : Act World Unit := fun w =>
  match storeWith initial with
  | .error f => (.error f, w)
  | .ok s =>
    let l := listenToAll s
    let w := w.updateHost fun h => { h with binding := some ⟨l.2, l.1⟩ }
    updateSettings run (.obj l.2.data) w

/-- Tells as many listeners as there are of a changed setting. -/
def tellBound : Nat → Act World Unit
  | 0 => fun w => (.ok (), w)
  | n + 1 => fun w =>
    match w.host.binding with
    | none => (.ok (), w)
    | some b =>
      match updateSettings run (.obj b.store.data) w with
      | (.error f, w) => (.error f, w)
      | (.ok (), w) => tellBound n w

/-- Changes a setting of the store that is followed, and says whether it was a change. -/
def storeValue (key : String) (value : Json) : Act World Bool := fun w =>
  match w.host.binding with
  | none => (.ok false, w)
  | some b =>
    match b.store.put? key value with
    | .error f => (.error f, w)
    | .ok none => (.ok false, w)
    | .ok (some s) =>
      let w := w.updateHost fun h => { h with binding := some { b with store := s } }
      match tellBound run (s.listenersOf key).length w with
      | (.error f, w) => (.error f, w)
      | (.ok (), w) => (.ok true, w)

/-- Follows the store no longer. -/
def unbind (w : World) : World :=
  w.updateHost fun h =>
    { h with binding := h.binding.map fun b =>
        { b with store := b.listeners.foldl (fun s n => s.unlisten n) b.store } }

def shutdownController (w : World) : World :=
  let w := cancelFetches run (w.dropChange.rejectCurrent "shutdown").2
  w.updateController fun c => { c with listening := false }

end GhostText.World
