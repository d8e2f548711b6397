import GhostText.Client.Send

/-!
# Reporting

Changes of the status and the start of the server are told to the subscribers, in the order in which
they subscribed. One who is taken off while the others are told is not told any more, one who comes
is told the next time, and one who fails does not keep the others from being told.
-/

namespace GhostText.World

variable (run : Runner)

/-- Calls a callback of the host. -/
def callHost (kind : CallbackKind) (c : Callback Action) (o : Outcome) : Act World Unit := fun w =>
  run (.script none c.script) (w.record (.calledBack c.label kind o))

def statusLine (old new : Status) : String := "Copilot status: " ++ old.name ++ " -> " ++ new.name

def callSubscriber (notice : Notice) : Subscriber → Act World Unit
  | .host label => fun w =>
    run (.script none ((w.host.subscribers.lookup label).getD [])) (w.record (.told label notice))
  | .terminal => fun w =>
    match notice with
    | .statusChanged old new => (.ok (), w.record (.printed (statusLine old new)))
    | .serverStarted _ => (.ok (), w)

/-- Tells one subscriber, unless the subscription is gone. -/
def tellSubscription (notice : Notice) (w : World) (s : Subscription) : World :=
  if w.assistant.isSubscribed s.number then w.tell (callSubscriber run notice s.subscriber) else w

def tellSubscribers (notice : Notice) (w : World) : World :=
  (w.assistant.subscriptions.filter fun s => s.topic = notice.topic).foldl
    (tellSubscription run notice) w

/-- Takes on a status; only a change is told. -/
def changeStatus (status : Status) (w : World) : World :=
  let old := w.assistant.status
  if status = old then w
  else
    tellSubscribers run (.statusChanged old status)
      ((w.updateAssistant fun a => { a with status := status }).signal (.statusChanged old status))

def reportAccount (status : Json) (w : World) : World := changeStatus run (.ofAccount status) w

def reportActivity (busy : Bool) (w : World) : World := changeStatus run (.ofActivity busy) w

/-! ## Fetches that are given up -/

/-- Once no fetch is wanted any more there is no activity. -/
def reportIfIdle (w : World) : World :=
  if w.fetches.allCancelled then reportActivity run false w else w

def cancelFetch (id : Json) : Act World Unit := fun w =>
  match id.toInteger with
  | .error f => (.error f, w)
  | .ok n =>
    if w.fetches.underWay.any fun t => (t.id : Int) = n then
      (.ok (), reportIfIdle run (w.updateFetches fun s =>
        { s with
          underWay := s.underWay.map fun t =>
            if (t.id : Int) = n then { t with cancelled := true } else t }))
    else (.ok (), w)

def cancelFetches (w : World) : World :=
  reportActivity run false (w.updateFetches fun s =>
    { s with underWay := s.underWay.map fun t => { t with cancelled := true } })

/-- Takes a fetch off the table and says whether it had been given up. -/
def removeFetch (id : Nat) (w : World) : Bool × World :=
  (w.fetches.underWay.any fun t => t.id = id && t.cancelled,
    w.updateFetches fun s => { s with underWay := s.underWay.filter fun t => t.id != id })

def fetchFailed (id : Nat) (f : Fault) (w : World) : World :=
  let w := (w.removeFetch id).2
  reportIfIdle run (w.log .debug ("Completion task " ++ toString id ++ " failed: " ++ f.message))

/-! ## Completions -/

def notifyShown (uuid : String) (w : World) : World :=
  w.notify "notifyShown" (.obj [("uuid", .str uuid)])

def notifyAccepted (uuid : String) (w : World) : World :=
  w.notify "notifyAccepted" (.obj [("uuid", .str uuid)])

def notifyRejected (uuids : List String) (w : World) : World :=
  w.notify "notifyRejected" (.obj [("uuids", .arr (uuids.map .str))])

end GhostText.World
