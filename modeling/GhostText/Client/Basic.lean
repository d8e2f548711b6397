import GhostText.Client.Handler
import GhostText.Settings.Config
import GhostText.Wire.Frame

/-!
# The client

What a client knows: its calls and which of them wait for an answer, the requests of the peer that
wait for one, the handlers, and how much it logs. The n-th call has the identifier n.
-/

namespace GhostText

/-- A message of the peer as its handler sees it. -/
structure Context where
  method : String
  id : Json
  isRequest : Bool
  answered : Bool
  suppressed : Bool

structure Client where
  name : String
  verbosity : Verbosity
  logsTraffic : Bool
  isInitialized : Bool
  capabilities : Json
  reader : Frame.Reader
  calls : List Call
  pending : List PendingCall
  /-- Requests of the peer that were handed to a handler and are not answered yet. -/
  inFlight : List Json
  /-- Those of them that the peer has cancelled. -/
  cancelled : List Json
  handlers : Handlers
  registrations : Registrations
  /-- Every message handed to a handler so far. -/
  contexts : List Context

namespace Client

def start (name : String) (verbosity : Verbosity) : Client where
  name := name
  verbosity := verbosity
  logsTraffic := false
  isInitialized := false
  capabilities := .obj []
  reader := .fresh
  calls := []
  pending := []
  inFlight := []
  cancelled := []
  handlers := .empty
  registrations := []
  contexts := []

/-! ## Log records -/

/-- Whether records of a level are kept. -/
def logs (level : LogLevel) (c : Client) : Bool :=
  match c.verbosity with
  | .off => false
  | .error => LogLevel.error.number ≤ level.number
  | .debug => true

/-- What the client's log records begin with. -/
def logTag (c : Client) : String := if c.name.isEmpty then "LSP:" else c.name ++ " LSP:"

/-! ## Calls -/

def nextId (c : Client) : Nat := c.calls.length + 1

def call? (id : Nat) (c : Client) : Option Call := c.calls.find? fun k => k.id = id

def updateCall (id : Nat) (f : Call → Call) (c : Client) : Client :=
  { c with calls := c.calls.map fun k => if k.id = id then f k else k }

def addCall (k : Call) (treatment : Treatment) (c : Client) : Client :=
  { c with calls := c.calls ++ [k], pending := c.pending ++ [⟨k.id, k.method, treatment⟩] }

def pendingIds (c : Client) : List Nat := c.pending.map PendingCall.id

def dropPending (id : Nat) (c : Client) : Client :=
  { c with pending := c.pending.filter fun p => p.id != id }

/-- The waiting call that the identifier of a response belongs to. -/
def pendingFor? (id : Json) (c : Client) : Option PendingCall :=
  match id with
  | .int n => c.pending.find? fun p => (p.id : Int) = n
  | _ => none

/-! ## Requests of the peer -/

def contains (ids : List Json) (id : Json) : Bool := ids.any id.same

def insertId (id : Json) (ids : List Json) : List Json :=
  if contains ids id then ids else ids ++ [id]

def eraseId (id : Json) (ids : List Json) : List Json := ids.filter fun i => !id.same i

def openRequest (id : Json) (c : Client) : Client := { c with inFlight := insertId id c.inFlight }

/-- Takes note that the peer has cancelled a request; an array or an object cannot be looked up. -/
def markCancelled (id : Json) (c : Client) : Except Fault Client :=
  if id.isStructured then .error (.unhashable id.kindName)
  else if contains c.inFlight id then .ok { c with cancelled := insertId id c.cancelled }
  else .ok c

def isCancelled (id : Json) (c : Client) : Bool := !id.isNull && contains c.cancelled id

/-- Closes a request of the peer and says whether it had been cancelled. -/
def consumeCancelled (id : Json) (c : Client) : Bool × Client :=
  let c := { c with inFlight := eraseId id c.inFlight }
  if c.isCancelled id then (true, { c with cancelled := eraseId id c.cancelled }) else (false, c)

def context? (n : Nat) (c : Client) : Option Context := c.contexts[n]?

def updateContext (n : Nat) (f : Context → Context) (c : Client) : Client :=
  { c with contexts := c.contexts.modify n f }

/-- The context of a message just received, and its number. -/
def addContext (method : String) (id : Json) (isRequest : Bool) (c : Client) : Nat × Client :=
  (c.contexts.length, { c with contexts := c.contexts ++ [⟨method, id, isRequest, false, false⟩] })

/-! ## The end of a connection -/

/-- Forgets every waiting call and every open request; the calls stay as they are. -/
def disconnect (c : Client) : Client :=
  { c with
    pending := [], inFlight := [], cancelled := [], reader := .fresh, isInitialized := false }

end Client

end GhostText
