import GhostText.Assistant.Start
import GhostText.Startup.Step
import GhostText.Suggestion.Deliver

/-!
# Answers

What happens when a call is answered: its result is handed on to those who wait for it, in the order
in which they came. The handshake and the start from the command line are chains of such answers,
and a fetch ends with one.
-/

namespace GhostText.World

variable (run : Runner)

/-! ## Calls that succeed -/

def reactToReply (r : Reply) : Reaction → Act World Unit
  | .host kind c => callHost run kind c (.reply r)
  | .startup step => fun w => (.ok (), continueStartup run r.json step w)

/-- What happens with the result of a call. -/
def continueWithReply (r : Reply) : Continuation → Act World Unit
  | .reaction reaction => reactToReply run r reaction
  | .serverStarted => fun w => (.ok (), serverStarted run r.json w)
  | .afterStart h => afterStart run h
  | .afterEditorInfo h => fun w => (.ok (), afterEditorInfo run h w)
  | .fetched task sink =>
    match r with
    | .completions result => fetchAnswered run task result sink
    | .value _ => fun w => (.ok (), w)
  | _ => fun w => (.ok (), w)

/-- Fulfils a call that has not settled. -/
def fulfilCall (id : Nat) (r : Reply) (w : World) : World :=
  match w.client.call? id with
  | none => w
  | some c =>
    if c.status ≠ .pending then w
    else
      c.onResult.foldl (fun w k => w.callBack (continueWithReply run r k))
        (w.updateClient fun k => k.updateCall id (Call.fulfil r))

/-- Adds what is to happen when a call settles; if it has settled it happens now. -/
def andThen (id : Nat) (onResult onError : List Continuation) (w : World) : World :=
  match w.client.call? id with
  | none => w
  | some c =>
    match c.status, c.result, c.error with
    | .fulfilled, some r, _ =>
      onResult.foldl (fun w k => w.callBack (continueWithReply run r k)) w
    | .rejected, _, some f =>
      onError.foldl (fun w k => w.callBack (continueWithError run f k)) w
    | _, _, _ => w.updateClient fun k => k.updateCall id (Call.await onResult onError)

/-! ## The handshake -/

/-- Asks the server to start. -/
def startServer (params : Json) (onResult onError : List Continuation) (w : World) : Nat × World :=
  let (id, w) := request run .mutation (.str "initialize") params [] [] .asIs w
  let w := andThen run id [.serverStarted] [.serverNotStarted] w
  (id, andThen run id onResult onError w)

/-- Starts the server and makes it ready: it is told that it has started and who it is talking to,
and asked for its version. -/
def handshake (folder trace processId : Json) (h : Handshake) : Act World Nat := fun w =>
  match (orGiven processId (.int w.processId)).toInteger with
  | .error f => (.error f, w)
  | .ok n =>
    let params := startParams n (trace.textOr "off") (Text.trim folder.textOrEmpty)
    let r := startServer run params [.afterStart h] (reactions h.onError) w
    (.ok r.1, r.2)

end GhostText.World
