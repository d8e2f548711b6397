import GhostText.Client.Request
import GhostText.Location.FileUri

/-!
# Requests of the assistant

The requests that make up the vocabulary of the service, and the fetches of completions among them.
-/

namespace GhostText.World

variable (run : Runner)

/-- The parameters of a request that has none. -/
def noParams : Json := .obj []

def getVersion (onResult onError : List Continuation) (w : World) : Nat × World :=
  request run .query (.str "getVersion") noParams onResult onError .asIs w

def checkStatus (localOnly : Json) (onResult onError : List Continuation) (w : World) :
    Nat × World :=
  request run .query (.str "checkStatus") (.obj [("localChecksOnly", .bool localOnly.truthy)])
    onResult onError .account w

def signIn (onResult onError : List Continuation) (w : World) : Nat × World :=
  request run .mutation (.str "signInInitiate") noParams onResult onError .asIs w

def confirmSignIn (code : Json) (onResult onError : List Continuation) (w : World) : Nat × World :=
  request run .mutation (.str "signInConfirm") (.obj [("userCode", .str code.textOrEmpty)])
    onResult onError .account w

def signOut (onResult onError : List Continuation) (w : World) : Nat × World :=
  request run .mutation (.str "signOut") noParams onResult onError .account w

/-- The key and the value of a pair: two items of an array or of anything else that has two. -/
def pairOf (pair : Json × Nat) : Except Fault (String × Json) :=
  match pair.1.items with
  | .error _ => .error (.notSequence pair.2)
  | .ok [.str key, value] => .ok (key, value)
  | .ok [key, value] =>
    if key.isStructured then .error (.unhashable key.kindName)
    else .ok (Json.line .tight key, value)
  | .ok items => .error (.notPair pair.2 items.length)

/-- Information is an object, or pairs of keys and values that make one up. -/
def infoOf (v : Json) : Except Fault Json :=
  match v with
  | .obj fields => .ok (.obj fields)
  | v => do
    let pairs ← (← v.items).zipIdx.mapM pairOf
    return .obj (Fields.ofPairs pairs)

def setEditorInfo (editor plugin : Json) (onResult onError : List Continuation) : Act World Nat :=
  fun w =>
    match infoOf editor, infoOf plugin with
    | .error f, _ => (.error f, w)
    | _, .error f => (.error f, w)
    | .ok editor, .ok plugin =>
      let r := request run .mutation (.str "setEditorInfo")
        (.obj [("editorInfo", editor), ("editorPluginInfo", plugin)]) onResult onError .asIs w
      (.ok r.1, r.2)

/-! ## Completions -/

/-- A value where one is given, else another one. -/
def orGiven (v other : Json) : Json := if v.isNull then other else v

/-- What the server is told about the document and the place in it. -/
def completionParams (o : CompletionOptions) (w : World) : Except Fault Json := do
  let path := o.path.textOrEmpty
  let uri := orGiven o.uri (.str (if path.isEmpty then "" else FileUri.ofPath path))
  let tabSize ← o.tabSize.toInteger
  let indentSize ← (orGiven o.indentSize o.tabSize).toInteger
  let position ← o.position.toJson
  let version ← (orGiven o.version (.int w.assistant.version)).toInteger
  return .obj [("doc", .obj
    [("tabSize", .int tabSize), ("indentSize", .int indentSize),
      ("insertSpaces", .bool o.insertSpaces.truthy), ("path", .str path), ("uri", uri),
      ("relativePath", orGiven o.relativePath (.str path)),
      ("languageId", .str o.languageId.textOrEmpty), ("position", position),
      ("version", .int version)])]

def getCompletions (o : CompletionOptions) (cycling : Bool) (onResult onError : List Continuation) :
    Act World Nat := fun w =>
  match completionParams o w with
  | .error f => (.error f, w)
  | .ok params =>
    let method := if cycling then "getCompletionsCycling" else "getCompletions"
    let r := request run .query (.str method) params onResult onError .completions w
    (.ok r.1, r.2)

/-- The text of a path. -/
def pathText : Json → Except Fault Text
  | .str s => .ok s.toList
  | v => .error (.notPath v.kindName)

/-- The way from the workspace folder to the active file, as far as both are known. -/
def relativePath (t : Fetches) : Except Fault Json :=
  if !t.workspaceFolder.truthy || !t.activeFile.truthy then .ok t.activeFile
  else do
    let path ← pathText t.activeFile
    let folder ← pathText t.workspaceFolder
    return .str (String.ofList (Path.relative path folder))

/-- Starts a fetch and gives its number. It is in the table before the request is made. -/
def startFetch (position : UncheckedPosition) (sink : CompletionSink) : Act World Nat := fun w =>
  let id := w.fetches.started + 1
  let w := w.updateFetches fun t =>
    { t with started := id, underWay := t.underWay ++ [⟨id, false⟩] }
  let w := reportActivity run true w
  match relativePath w.fetches with
  | .error f => (.error f, w)
  | .ok relative =>
    let options : CompletionOptions := {
      position := position
      tabSize := w.fetches.tabSize
      insertSpaces := w.fetches.insertSpaces
      path := w.fetches.activeFile
      relativePath := relative
      languageId := w.fetches.languageId }
    match getCompletions run options false [.fetched id sink] [.fetchFailed id] w with
    | (.error f, w) => (.error f, w)
    | (.ok _, w) => (.ok id, w)

/-! ## The document -/

def uriOf (path : Json) : Except Fault String := do
  return FileUri.ofPath (String.ofList (← pathText path))

/-- Opens the document at version zero. -/
def openAtZero (uri languageId text : Json) (w : World) : World :=
  let w := w.updateAssistant fun a => { a with version := 0 }
  (didOpen uri languageId (.int 0) text w).2

/-- Tells the next version of the document. -/
def changeVersion (uri : Json) (changes : Json) : Act World Nat := fun w =>
  let w := w.updateAssistant fun a => { a with version := a.version + 1 }
  let version := w.assistant.version
  match didChange uri (.int version) changes w with
  | (.error f, w) => (.error f, w)
  | (.ok (), w) => (.ok version, w)

/-- The change that replaces the whole text. -/
def wholeText (text : String) : Json := .arr [.obj [("text", .str text)]]

end GhostText.World
