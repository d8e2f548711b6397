import GhostText.Startup.Finish

/-!
# Requests

A request becomes a waiting call, and it stays one until it is answered, given up or refused by the
transport. A call that is refused is rejected at once.
-/

namespace GhostText.World

variable (run : Runner)

/-! ## Calls that fail -/

/-- What becomes of an error in the end. -/
def reactToError (f : Fault) : Reaction → Act World Unit
  | .host kind c => callHost run kind c (.fault f)
  | .startup _ => fun w =>
    (.ok (), (w.log .error ("Copilot request failed: " ++ f.message)).finishStartup 1)

/-- What happens with the error of a call. -/
def continueWithError (f : Fault) : Continuation → Act World Unit
  | .reaction r => reactToError run f r
  | .serverNotStarted => fun w =>
    (.ok (), (w.updateClient fun c => { c with isInitialized := false }).statusMessage
      ("LSP initialize failed: " ++ f.message))
  | .fetchFailed task => fun w => (.ok (), fetchFailed run task f w)
  | _ => fun w => (.ok (), w)

/-- Rejects a call that has not settled. -/
def rejectCall (id : Nat) (f : Fault) (w : World) : World :=
  match w.client.call? id with
  | none => w
  | some c =>
    if c.status ≠ .pending then w
    else
      c.onError.foldl (fun w k => w.callBack (continueWithError run f k))
        (w.updateClient fun k => k.updateCall id (Call.reject f))

/-! ## Making requests -/

/-- Makes a request and gives the identifier of its call. -/
def request (kind : CallKind) (method params : Json) (onResult onError : List Continuation)
    (treatment : Treatment) (w : World) : Nat × World :=
  let id := w.client.nextId
  let name := method.textOrEmpty
  let w := w.updateClient fun c => c.addCall (.start id name kind onResult onError) treatment
  match send run (Message.request (.int id) name params).toJson w with
  | (true, w) => (id, w)
  | (false, w) =>
    let w := w.updateClient fun c => c.dropPending id
    (id, rejectCall run id
      (.response (.of .internalError ("Transport refused write for " ++ method.shown))) w)

/-- Gives up a call that is pending; the server is told. -/
def cancelCall (id : Nat) : Act World Unit := fun w =>
  match w.client.call? id with
  | none => (.ok (), w)
  | some c =>
    if !c.isPending then (.error (.notPending (toString c.id) (some c.method)), w)
    else
      let w := w.updateClient fun k => (k.updateCall id Call.cancel).dropPending id
      (.ok (), w.notify "$/cancelRequest" (.obj [("id", .int id)]))

/-- Gives up the call that waits under an identifier. -/
def cancelRequest (id : Json) : Act World Unit := fun w =>
  match id.toInteger with
  | .error f => (.error f, w)
  | .ok n =>
    match w.client.pendingFor? (.int n) with
    | none => (.error (.notPending id.shown none), w)
    | some p => cancelCall p.id w

/-! ## Notifications about documents -/

def didOpen (uri languageId version text : Json) : Act World Unit := fun w =>
  match version.toInteger with
  | .error f => (.error f, w)
  | .ok version =>
    (.ok (), w.notify "textDocument/didOpen" (.obj [("textDocument", .obj
      [("uri", .str uri.textOrEmpty), ("languageId", .str (languageId.textOr "plaintext")),
        ("version", .int version), ("text", .str text.textOrEmpty)])]))

def didChange (uri version changes : Json) : Act World Unit := fun w =>
  match version.toInteger, changes.items with
  | .error f, _ => (.error f, w)
  | _, .error f => (.error f, w)
  | .ok version, .ok changes =>
    (.ok (), w.notify "textDocument/didChange" (.obj
      [("textDocument", .obj [("uri", .str uri.textOrEmpty), ("version", .int version)]),
        ("contentChanges", .arr changes)]))

def didClose (uri : Json) (w : World) : World :=
  w.notify "textDocument/didClose" (.obj [("textDocument", .obj [("uri", .str uri.textOrEmpty)])])

def didChangeFolders (added removed : Json) : Act World Unit := fun w =>
  match added.itemsOrNone, removed.itemsOrNone with
  | .error f, _ => (.error f, w)
  | _, .error f => (.error f, w)
  | .ok added, .ok removed =>
    (.ok (), w.notify "workspace/didChangeWorkspaceFolders"
      (.obj [("event", .obj [("added", .arr added), ("removed", .arr removed)])]))

end GhostText.World
