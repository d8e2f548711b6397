import GhostText.Proofs.Client.Replying
import GhostText.Proofs.Sync.Typing

/-!
# What a start does not notice

A start goes by its calls, by what is read of the server, by who is told what the server says, and
by its own state. Log records, messages, and the requests and notifications of the server leave all
that as it is where no handler has a script and only the terminal hears of the status.
-/

namespace GhostText

structure Bearings where
  calls : List Call
  pending : List PendingCall
  handlers : Handlers
  reader : Frame.Reader
  accepting : Bool
  arrival : Arrival
  subscriptions : List Subscription
  startup : Option Startup

namespace World

def bearings (w : World) : Bearings where
  calls := w.client.calls
  pending := w.client.pending
  handlers := w.client.handlers
  reader := w.client.reader
  accepting := w.transport.accepting
  arrival := w.transport.arrival
  subscriptions := w.assistant.subscriptions
  startup := w.startup

variable {w w' : World}

/-! ## Records and messages -/

/-- Events alone change no bearings. -/
theorem Adds.bearings {es : List Event} (h : Adds w w' es) : w'.bearings = w.bearings := by
  subst h
  rfl

theorem AddsAsides.bearings (h : AddsAsides w w') : w'.bearings = w.bearings := by
  obtain ⟨es, he, -⟩ := h
  exact he.bearings

/-- What is done for the server leaves the bearings of a start as they are. -/
theorem Replies.bearings (h : w.Replies w') : w'.bearings = w.bearings := by
  unfold World.bearings
  rw [h.calls, h.pending, h.handlers, h.reader, h.rest]

@[simp] theorem bearings_record (e : Event) (w : World) : (w.record e).bearings = w.bearings := rfl

@[simp] theorem bearings_signal (s : Signal) (w : World) : (w.signal s).bearings = w.bearings := rfl

@[simp] theorem bearings_log (level : LogLevel) (text : String) (w : World) :
    (w.log level text).bearings = w.bearings := rfl

@[simp] theorem bearings_print (line : String) (w : World) :
    (w.print line).bearings = w.bearings := rfl

@[simp] theorem bearings_clientLog (level : LogLevel) (text : String) (w : World) :
    (w.clientLog level text).bearings = w.bearings :=
  (addsAsides_clientLog ..).bearings

@[simp] theorem bearings_logTraffic (direction arrow : String) (payload : Json) (w : World) :
    (w.logTraffic direction arrow payload).bearings = w.bearings :=
  (addsAsides_logTraffic ..).bearings

@[simp] theorem bearings_afterWrite (payload : Json) (r : Bool × World) :
    (afterWrite payload r).2.bearings = r.2.bearings :=
  (addsAsides_afterWrite ..).bearings

@[simp] theorem bearings_post (payload : Json) (w : World) :
    (w.post payload).2.bearings = w.bearings := by
  obtain ⟨es, -, he⟩ := post_adds payload w
  exact he.bearings

@[simp] theorem bearings_notify (method : String) (params : Json) (w : World) :
    (w.notify method params).bearings = w.bearings :=
  bearings_post ..

@[simp] theorem bearings_statusMessage (text : String) (w : World) :
    (w.statusMessage text).bearings = w.bearings :=
  (addsAsides_statusMessage ..).bearings

/-- Whether or not a callback fails, a start notices what it did and nothing more. -/
@[simp] theorem bearings_callBack (x : Act World Unit) (w : World) :
    (w.callBack x).bearings = (x w).2.bearings :=
  (addsAsides_callBack ..).bearings

/-! ## The handlers of a start -/

/-- No handler of the host is entered. -/
def Unscripted (w : World) : Prop :=
  w.client.handlers = ⟨[], [("LogMessage", .serverLog), ("statusNotification", .serverStatus)]⟩

/-- No request of the server runs a script of the host. -/
theorem Unscripted.request?_ne (h : w.Unscripted) (method : String) (kind : CallKind)
    (script : Script) : w.client.handlers.request? method ≠ some (.user kind (some script)) := by
  intro found
  rw [h] at found
  simpa using mem_of_request? found

theorem Unscripted.notification?_ne (h : w.Unscripted) (method : String) (script : Script) :
    w.client.handlers.notification? method ≠ some (.user (.script script)) := by
  intro found
  rw [h] at found
  simpa using mem_of_notification? found

variable (run : Runner)

/-- A start does not notice that the status is printed. -/
theorem bearings_changeStatus (hw : w.Unwatched) (status : Status) :
    (changeStatus run status w).bearings = w.bearings :=
  (addsAsides_changeStatus run hw status).bearings

/-- A start does not notice the requests of the server. -/
theorem bearings_handleRequest (h : w.Unscripted) (n : Nat) (id : Json) (method : String)
    (params : Json) : (handleRequest run n id method params w).bearings = w.bearings := by
  obtain hreplies | ⟨kind, script, w₁, found, -, -⟩ :=
    handleRequest_cases run n id method params w
  · exact hreplies.bearings
  · exact absurd found (h.request?_ne method kind script)

theorem bearings_handleNotification (h : w.Unscripted) (hw : w.Unwatched) (n : Nat)
    (method : String) (params : Json) :
    (handleNotification run n method params w).bearings = w.bearings := by
  obtain hreplies | ⟨script, w₁, found, -, -⟩ | ⟨-, s, he⟩ :=
    handleNotification_cases run n method params w
  · exact hreplies.bearings
  · exact absurd found (h.notification?_ne method script)
  · rw [he, bearings_signal, bearings_changeStatus run hw]

end World

end GhostText
