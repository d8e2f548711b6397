import GhostText.World

/-!
# Sending

A message is written to the transport, and if that is accepted the traffic is logged. Only a request
can be answered while it is being written, so nothing else happens while any other message is sent.
-/

namespace GhostText.World

variable (run : Runner)

/-- Logs a message that went out or came in. -/
def logTraffic (direction arrow : String) (payload : Json) (w : World) : World :=
  let text := Json.line .spaced payload
  let w := w.clientLog .debug (arrow ++ " " ++ text)
  if w.client.logsTraffic then w.signal (.trafficLogged direction text) else w

/-- Writes to the transport, which may refuse. -/
def transmit (payload : Json) (w : World) : Bool × World :=
  if w.transport.accepting then (true, w.record (.sent payload)) else (false, w)

/-- What follows a write. -/
def afterWrite (payload : Json) (r : Bool × World) : Bool × World :=
  if r.1 then (true, r.2.logTraffic "out" "-->" payload)
  else (false, r.2.clientLog .error "Transport refused outgoing message")

/-- Sends a message that nothing answers. -/
def post (payload : Json) (w : World) : Bool × World := afterWrite payload (w.transmit payload)

/-- Writes a request whose answer is ready. -/
def writeAnswered (payload answer : Json) (w : World) : Bool × World :=
  match w.transmit payload with
  | (false, w) => (false, w)
  | (true, w) =>
    match w.transport.arrival with
    | .later =>
      let arriving := w.transport.arriving ++ [answer]
      (true, { w with transport := { w.transport with arriving := arriving } })
    | .atOnce => (!w.transport.refusesAnswered, w.tell (run (.deliver (Frame.encode answer))))

/-- Sends any message. -/
def send (payload : Json) (w : World) : Bool × World :=
  match w.transport.answerTo? payload with
  | none => w.post payload
  | some answer => afterWrite payload (writeAnswered run payload answer w)

def notify (method : String) (params : Json) (w : World) : World :=
  (w.post (Message.notification method params).toJson).2

/-! ## The end of a connection -/

/-- Forgets all that waits; the calls stay unsettled. -/
def closeClient (w : World) : World :=
  let count := w.client.pending.length
  let w :=
    if count = 0 then w
    else w.clientLog .debug ("Dropping " ++ toString count ++ " pending request(s)")
  w.updateClient Client.disconnect

/-! ## Answers to the peer -/

def respond (id result : Json) (w : World) : World :=
  (w.post (Message.response id result none).toJson).2

def respondError (id : Json) (e : ResponseError) (w : World) : World :=
  (w.post (Message.response id .null (some e)).toJson).2

/-- Claims the answer to a message. A notification has none, and a request has one. -/
def claimAnswer (n : Nat) (c : Context) (w : World) : Bool × World :=
  if !c.isRequest then
    (false, w.clientLog .warning ("Notification " ++ c.method ++ " cannot be answered"))
  else if c.answered then
    (false, w.clientLog .warning
      ("Request " ++ c.method ++ " (" ++ c.id.shown ++ ") was already answered"))
  else (true, w.updateClient fun k => k.updateContext n fun c => { c with answered := true })

def takeCancelled (id : Json) (w : World) : Bool × World :=
  let r := w.client.consumeCancelled id
  (r.1, { w with client := r.2 })

/-- Answers a request with a result; one that was cancelled is answered as cancelled. -/
def succeed (n : Nat) (value : Json) (w : World) : World :=
  match w.client.context? n with
  | none => w
  | some c =>
    match w.claimAnswer n c with
    | (false, w) => w
    | (true, w) =>
      match w.takeCancelled c.id with
      | (true, w) =>
        w.respondError c.id (.of .requestCancelled ("Request " ++ c.method ++ " was cancelled"))
      | (false, w) => w.respond c.id value

/-- Answers a request with an error. The answer is claimed even if the error turns out to be
none. -/
def failWith (n : Nat) (error : Except Fault ResponseError) : Act World Unit := fun w =>
  match w.client.context? n with
  | none => (.ok (), w)
  | some c =>
    match w.claimAnswer n c with
    | (false, w) => (.ok (), w)
    | (true, w) =>
      let w := (w.takeCancelled c.id).2
      match error with
      | .ok e => (.ok (), w.respondError c.id e)
      | .error f => (.error f, w)

/-- Answers a request with an error of a known kind. -/
def failAs (n : Nat) (code : ErrorCode) (message : String) (w : World) : World :=
  (failWith n (.ok (.of code message)) w).2

end GhostText.World
