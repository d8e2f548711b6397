import GhostText.Json.Convert

/-!
# Status

What the service is doing, as it is shown to the user, and who is told when that changes.
-/

namespace GhostText

inductive Status where
  | normal
  | inProgress
  | warning
  deriving DecidableEq, Repr

namespace Status

def name : Status → String
  | .normal => "Normal"
  | .inProgress => "InProgress"
  | .warning => "Warning"

def ofName? (name : String) : Option Status :=
  match name with
  | "Normal" => some .normal
  | "InProgress" => some .inProgress
  | "Warning" => some .warning
  | _ => none

/-- The status of an account: all is well, or the user has to do something. -/
def ofAccount (v : Json) : Status := if v.textOrEmpty = "OK" then .normal else .warning

def ofActivity (busy : Bool) : Status := if busy then .inProgress else .normal

end Status

/-- What one may be told about. -/
inductive Topic where
  | status
  | serverStarted
  deriving DecidableEq, Repr

namespace Topic

def name : Topic → String
  | .status => "changeStatus"
  | .serverStarted => "initialized"

def all : List Topic := [.status, .serverStarted]

def ofName? (v : Json) : Option Topic := all.find? fun t => v.same (.str t.name)

end Topic

/-- What a subscriber is told. -/
inductive Notice where
  | statusChanged (old new : Status)
  | serverStarted (result : Json)

def Notice.topic : Notice → Topic
  | .statusChanged _ _ => .status
  | .serverStarted _ => .serverStarted

/-- Who is told. -/
inductive Subscriber where
  | host (label : String)
  /-- The line on the terminal. -/
  | terminal
  deriving DecidableEq, Repr

/-- A subscription has a number, so that one taken back and made again is another one. -/
structure Subscription where
  number : Nat
  topic : Topic
  subscriber : Subscriber
  deriving DecidableEq, Repr

structure Assistant where
  /-- The version of the document the server was told last. -/
  version : Nat
  status : Status
  subscriptions : List Subscription
  nextNumber : Nat
  deriving DecidableEq, Repr

namespace Assistant

def start : Assistant := ⟨0, .warning, [], 0⟩

def hasSubscription (topic : Topic) (subscriber : Subscriber) (a : Assistant) : Bool :=
  a.subscriptions.any fun s => s.topic = topic && s.subscriber = subscriber

/-- Adds a subscription unless there is one. -/
def subscribe (topic : Topic) (subscriber : Subscriber) (a : Assistant) : Assistant :=
  if a.hasSubscription topic subscriber then a
  else
    { a with
      subscriptions := a.subscriptions ++ [⟨a.nextNumber, topic, subscriber⟩]
      nextNumber := a.nextNumber + 1 }

def unsubscribe (topic : Topic) (subscriber : Subscriber) (a : Assistant) : Assistant :=
  { a with
    subscriptions := a.subscriptions.filter fun s =>
      !(s.topic = topic && s.subscriber = subscriber) }

def isSubscribed (number : Nat) (a : Assistant) : Bool :=
  a.subscriptions.any fun s => s.number = number

end Assistant

end GhostText
