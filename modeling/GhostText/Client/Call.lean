import GhostText.Host.Action
import GhostText.Suggestion.Completion

/-!
# Calls

A call is one request to the server and its outcome. It settles at most once. Giving up a call does
not settle it: the callbacks are dropped, and an answer that comes later finds no waiting call.
-/

namespace GhostText

inductive CallKind where
  | query
  | mutation
  deriving DecidableEq, Repr

namespace CallKind

def name : CallKind → String
  | .query => "query"
  | .mutation => "mutation"

def ofName? (v : Json) : Option CallKind :=
  match v with
  | .str "query" => some .query
  | .str "mutation" => some .mutation
  | _ => none

end CallKind

inductive CallStatus where
  | pending
  | fulfilled
  | rejected
  deriving DecidableEq, Repr

def CallStatus.name : CallStatus → String
  | .pending => "pending"
  | .fulfilled => "fulfilled"
  | .rejected => "rejected"

/-- What a call was answered with. -/
inductive Reply where
  | value (v : Json)
  | completions (r : CompletionResult)

/-- The value of a reply; completions are no value of their own. -/
def Reply.json : Reply → Json
  | .value v => v
  | .completions _ => .null

inductive CallbackKind where
  | result
  | error
  | ready
  | completion
  deriving DecidableEq, Repr

def CallbackKind.name : CallbackKind → String
  | .result => "result"
  | .error => "error"
  | .ready => "ready"
  | .completion => "completion"

/-- The steps of starting up from the command line that wait for an answer. -/
inductive StartupStep where
  | ready
  | account
  | signIn
  | signedIn
  | failed
  deriving DecidableEq, Repr

/-- What becomes of an outcome in the end. -/
inductive Reaction where
  | host (kind : CallbackKind) (callback : Callback Action)
  | startup (step : StartupStep)

/-- What is needed to go on with a handshake. -/
structure Handshake where
  editorInfo : Json
  pluginInfo : Json
  onReady : Option Reaction
  onError : Option Reaction

/-- Who takes the completion that was fetched. -/
inductive CompletionSink where
  | nobody
  | host (callback : Callback Action)
  | controller

/-- What happens with a result or an error once the call has settled. -/
inductive Continuation where
  | reaction (r : Reaction)
  | serverStarted
  | serverNotStarted
  | afterStart (h : Handshake)
  | afterEditorInfo (h : Handshake)
  | fetched (task : Nat) (sink : CompletionSink)
  | fetchFailed (task : Nat)

/-- How a result is interpreted before the call is fulfilled. -/
inductive Treatment where
  | asIs
  /-- The result tells whether the account may use the service. -/
  | account
  | completions
  | host (t : HostTransform)

structure Call where
  id : Nat
  method : String
  kind : CallKind
  status : CallStatus
  cancelled : Bool
  result : Option Reply
  error : Option Fault
  onResult : List Continuation
  onError : List Continuation

namespace Call

def start (id : Nat) (method : String) (kind : CallKind) (onResult onError : List Continuation) :
    Call :=
  ⟨id, method, kind, .pending, false, none, none, onResult, onError⟩

def isPending (c : Call) : Bool := c.status = .pending && !c.cancelled

def fulfil (r : Reply) (c : Call) : Call :=
  { c with status := .fulfilled, result := some r, onResult := [], onError := [] }

def reject (f : Fault) (c : Call) : Call :=
  { c with status := .rejected, error := some f, onResult := [], onError := [] }

def cancel (c : Call) : Call := { c with cancelled := true, onResult := [], onError := [] }

/-- Adds what is to happen when the call settles. -/
def await (onResult onError : List Continuation) (c : Call) : Call :=
  { c with onResult := c.onResult ++ onResult, onError := c.onError ++ onError }

def shown (c : Call) : String :=
  "ResponseHandle(id=" ++ toString c.id ++ ", method=" ++ Text.quoted c.method ++ ", status=" ++
    c.status.name ++ (if c.cancelled then ", cancelled" else "") ++ ")"

end Call

/-- A call that waits for its answer. -/
structure PendingCall where
  id : Nat
  method : String
  treatment : Treatment

end GhostText
