import GhostText.Client.Answer

/-!
# Dispatch

Bytes that arrive are cut into messages, and the messages are dispatched one after another. Whatever
a handler or a callback does with one of them, the next ones are dispatched all the same.
-/

namespace GhostText.World

variable (run : Runner)

/-! ## Responses -/

/-- A result could not be interpreted, and its call fails. -/
def rejectResult (p : PendingCall) (f : Fault) (w : World) : World :=
  rejectCall run p.id f (w.clientLog .error
    ("Could not interpret the result of " ++ p.method ++ ": " ++ f.message))

/-- Interprets a result and fulfils its call. -/
def settleResult (p : PendingCall) (result : Json) (w : World) : World :=
  match p.treatment with
  | .asIs => fulfilCall run p.id (.value result) w
  | .account =>
    let w := if result.isObject then reportAccount run (result.fieldD "status") w else w
    fulfilCall run p.id (.value result) w
  | .completions =>
    match CompletionResult.ofJson result with
    | .ok r => fulfilCall run p.id (.completions r) w
    | .error f => rejectResult run p f w
  | .host (.wrap key) =>
    fulfilCall run p.id (.value (.obj [(key, result)])) (w.record (.transformed result))
  | .host (.refuse f) => rejectResult run p f (w.record (.transformed result))

def handleResponse (id result : Json) (error : Option ResponseError) (w : World) : World :=
  if id.isNull then
    w.clientLog .error
      ("Received a response without id: " ++ (error.map ResponseError.message).getD "no error")
  else
    match w.client.pendingFor? id with
    | none =>
      w.clientLog .error ("Received a response for an unknown request id " ++ id.quotedText)
    | some p =>
      let w := w.updateClient fun c => c.dropPending p.id
      match error with
      | some e => rejectCall run p.id (.response e) w
      | none => settleResult run p result w

/-! ## Requests of the peer -/

/-- Changes what is registered, and answers the request if that could be read. -/
def changeRegistrations (n : Nat) (change : Registrations → Except Fault Registrations) :
    Act World Unit := fun w =>
  match change w.client.registrations with
  | .error f => (.error f, w)
  | .ok rs => (.ok (), (w.updateClient fun c => { c with registrations := rs }).succeed n .null)

/-- Calls the handler of a request. -/
def callRequestHandler (n : Nat) (method : String) (params id : Json) :
    RequestHandler → Act World Unit
  | .user _ none => fun w => (.error (.notCallable "NoneType"), w)
  | .user _ (some script) => fun w =>
    run (.script (some n) script) (w.record (.handled method params id true))
  | .reserved .register => changeRegistrations n (Registrations.register params)
  | .reserved .unregister => changeRegistrations n (Registrations.unregister params)

/-- A handler has failed; the peer is told, unless it was answered before. -/
def handlerFailed (n : Nat) (method : String) (f : Fault) (w : World) : World :=
  let w := w.clientLog .error ("Handler for " ++ method ++ " raised")
  if (w.client.context? n).any Context.answered then w else w.failAs n .internalError f.report

def handleRequest (n : Nat) (id : Json) (method : String) (params : Json) (w : World) : World :=
  match w.client.handlers.request? method with
  | none =>
    if isReserved method then w.failAs n .methodNotFound ("Unhandled method " ++ method)
    else w.clientLog .debug ("No handler for request " ++ method ++ "; not answering")
  | some h =>
    let w := w.updateClient fun c => c.openRequest id
    match callRequestHandler run n method params id h w with
    | (.ok _, w) => w
    | (.error f, w) => w.handlerFailed n method f

/-! ## Notifications of the peer -/

def suppressLogging (n : Nat) (w : World) : World :=
  w.updateClient fun c => c.updateContext n fun c => { c with suppressed := true }

/-- What the protocol itself does with a notification. -/
def takeReserved (n : Nat) (params : Json) : ReservedNotification → Act World Unit
  | .cancelRequest => fun w =>
    let id := params.fieldD "id"
    if id.isNull then (.ok (), w)
    else
      match w.client.markCancelled id with
      | .error f => (.error f, w)
      | .ok c => (.ok (), { w with client := c })
  | .progress => fun w =>
    (.ok (), w.signal (.progressReceived (params.fieldD "token") (params.fieldD "value")))
  | .logTrace => fun w =>
    let message := (params.fieldD "message").textOrEmpty
    let verbose := (params.fieldD "verbose").textOrEmpty
    (.ok (), w.clientLog .debug (if verbose.isEmpty then message else message ++ "\n" ++ verbose))
  | .logMessage => fun w =>
    let w := w.suppressLogging n
    match LogLevel.ofMessageType (params.fieldD "type") with
    | .error f => (.error f, w)
    | .ok level => (.ok (), w.clientLog level (params.fieldD "message").textOrEmpty)

/-- Logs what the server has to say. -/
def takeServerLog (n : Nat) (params : Json) (w : World) : World :=
  let w := w.suppressLogging n
  let message := params.shownMember "message" ""
  let extra := params.fieldD "extra"
  w.clientLog .debug (if extra.truthy then message ++ " " ++ extra.shown else message)

/-- Takes on the status the server gives. -/
def takeServerStatus (params : Json) (w : World) : World :=
  let status := params.fieldD "status"
  match Status.ofName? status.textOrEmpty with
  | some s => changeStatus run s w
  | none => w.clientLog .error ("Unknown Copilot status " ++ status.quotedText)

/-- Calls the handler of a notification. -/
def callNotificationHandler (n : Nat) (method : String) (params : Json) :
    NotificationHandler → Act World Unit
  | .reserved r => takeReserved n params r
  | .user (.script script) => fun w =>
    run (.script (some n) script) (w.record (.handled method params .null false))
  | .user .notCallable => fun w => (.error (.notCallable "RequestHandler"), w)
  | .user .serverLog => fun w => (.ok (), w.takeServerLog n params)
  | .user .serverStatus => fun w => (.ok (), takeServerStatus run params w)
  | .user .reserved => fun w => (.ok (), w)

def handleNotification (n : Nat) (method : String) (params : Json) (w : World) : World :=
  let w :=
    match w.client.handlers.notification? method with
    | none => w
    | some h =>
      match callNotificationHandler run n method params h w with
      | (.ok _, w) => w
      | (.error _, w) => w.clientLog .error ("Handler for " ++ method ++ " raised")
  w.signal (.notificationReceived method params)

/-! ## Messages -/

/-- The context of a message that has just come. -/
def openContext (method : String) (id : Json) (isRequest : Bool) (w : World) : Nat × World :=
  let r := w.client.addContext method id isRequest
  (r.1, { w with client := r.2 })

/-- Logs a message that came in, unless its handler has asked not to. -/
def logIncoming (n : Nat) (v : Json) (w : World) : World :=
  if (w.client.context? n).any Context.suppressed then w else w.logTraffic "in" "<--" v

def handleMessage (v : Json) (w : World) : Message → World
  | .response id result error => (handleResponse run id result error w).logTraffic "in" "<--" v
  | .request id method params =>
    let (n, w) := w.openContext method id true
    (handleRequest run n id method params w).logIncoming n v
  | .notification method params =>
    let (n, w) := w.openContext method .null false
    (handleNotification run n method params w).logIncoming n v

/-- The first characters of a text, for a log record. -/
def shortened (s : String) : String := String.ofList (s.toList.take 200)

def dispatch (w : World) : Frame.Body → World
  | .malformed raw e =>
    w.clientLog .error
      ("Parse error: " ++ e.message ++ "; payload dropped: " ++ String.ofList (raw.take 200))
  | .value v =>
    match Message.classify v with
    | .error violation =>
      w.clientLog .error ("Protocol violation (" ++ violation.message ++ "); message dropped: " ++
        shortened v.quotedText)
    | .ok m => handleMessage run v w m

/-- Takes bytes that have arrived: the messages they complete are dispatched in order. -/
def receive (bytes : List UInt8) (w : World) : World :=
  let done := w.client.reader.feed bytes
  let w := w.updateClient fun c => { c with reader := done.reader }
  let w := done.skipped.foldl
    (fun w header => w.log .debug
      ("Skipping frame with malformed header: " ++ Text.quotedBytes (header.take 80))) w
  done.bodies.foldl (dispatch run) w

end GhostText.World
