import GhostText.Client.Call
import GhostText.Text.Blank

/-!
# Handlers

The methods the peer may call and who answers them. The host's handler comes first; where there is
none, or where the host asks for it, the protocol's own handler is taken. For the reserved methods
the protocol says what kind of call they are.
-/

namespace GhostText

/-- The requests that the protocol answers itself. -/
inductive ReservedRequest where
  | register
  | unregister
  deriving DecidableEq, Repr

/-- The notifications that the protocol takes itself. -/
inductive ReservedNotification where
  | cancelRequest
  | progress
  | logTrace
  | logMessage
  deriving DecidableEq, Repr

def ReservedRequest.ofMethod? (method : String) : Option ReservedRequest :=
  match method with
  | "client/registerCapability" => some .register
  | "client/unregisterCapability" => some .unregister
  | _ => none

/-- Both change what the server may rely on. -/
def ReservedRequest.kind : ReservedRequest → CallKind
  | .register => .mutation
  | .unregister => .mutation

def ReservedNotification.ofMethod? (method : String) : Option ReservedNotification :=
  match method with
  | "$/cancelRequest" => some .cancelRequest
  | "$/progress" => some .progress
  | "$/logTrace" => some .logTrace
  | "window/logMessage" => some .logMessage
  | _ => none

/-- A method that a peer has to be answered even where nobody handles it. -/
def isReserved (method : String) : Bool := "$/".toList.isPrefixOf method.toList

/-- Who is entered for a request. -/
inductive RequestEntry where
  | reserved
  /-- A script; there is none where the host gave nothing to call. -/
  | user (kind : CallKind) (script : Option Script)

/-- Who is entered for a notification. -/
inductive NotificationEntry where
  | reserved
  | script (s : Script)
  /-- A handler for requests in the wrong place. -/
  | notCallable
  | serverLog
  | serverStatus

/-- Who answers a request. -/
inductive RequestHandler where
  | user (kind : CallKind) (script : Option Script)
  | reserved (r : ReservedRequest)

/-- Who takes a notification. -/
inductive NotificationHandler where
  | user (e : NotificationEntry)
  | reserved (r : ReservedNotification)

namespace RequestHandler

def kind : RequestHandler → CallKind
  | .user kind _ => kind
  | .reserved r => r.kind

def isUser : RequestHandler → Bool
  | .user _ _ => true
  | .reserved _ => false

end RequestHandler

def NotificationHandler.isUser : NotificationHandler → Bool
  | .user _ => true
  | .reserved _ => false

/-- The handlers of a client. -/
structure Handlers where
  requests : List (String × RequestEntry)
  notifications : List (String × NotificationEntry)

namespace Handlers

def empty : Handlers := ⟨[], []⟩

/-- Enters a value under a method in place of what stood there. -/
def enter {α : Type} (method : String) (a : α) (entries : List (String × α)) : List (String × α) :=
  (method, a) :: entries.filter fun e => e.1 != method

def withoutMethod {α : Type} (method : String) (entries : List (String × α)) : List (String × α) :=
  entries.filter fun e => e.1 != method

/-- Why the kind a handler was declared with is not taken. -/
inductive KindWarning where
  | reservedMethod (declared : Json) (taken : CallKind)
  | unknownKind (declared : Json)

def KindWarning.message (method : String) : KindWarning → String
  | .reservedMethod declared taken =>
    "Handler for reserved method " ++ method ++ " declared kind " ++ declared.quotedText ++
      "; using " ++ Text.quoted taken.name
  | .unknownKind declared =>
    "Unknown request kind " ++ declared.quotedText ++ " for " ++ method ++ "; using 'query'"

/-- The kind a handler gets, with a warning if that is not the one it was declared with. -/
def kindFor (method : String) (declared : Option Json) : CallKind × Option KindWarning :=
  match ReservedRequest.ofMethod? method, declared with
  | some r, some k =>
    (r.kind, if CallKind.ofName? k = some r.kind then none else some (.reservedMethod k r.kind))
  | some r, none => (r.kind, none)
  | none, some k =>
    match CallKind.ofName? k with
    | some kind => (kind, none)
    | none => (.query, some (.unknownKind k))
  | none, none => (.query, none)

def setRequest (method : String) (spec : HandlerSpec Action) (h : Handlers) :
    Handlers × Option KindWarning :=
  let user declared script :=
    let k := kindFor method declared
    ({ h with requests := enter method (.user k.1 script) h.requests }, k.2)
  match spec with
  | .reserved => ({ h with requests := enter method .reserved h.requests }, none)
  | .absent => user none none
  | .plain script => user none (some script)
  | .declared kind script => user (some kind) (some script)

def setNotification (method : String) (spec : HandlerSpec Action) (h : Handlers) : Handlers :=
  let entry : NotificationEntry := match spec with
    | .reserved => .reserved
    | .absent => .reserved
    | .plain script => .script script
    | .declared _ _ => .notCallable
  { h with notifications := enter method entry h.notifications }

def remove (method : String) (h : Handlers) : Handlers :=
  ⟨withoutMethod method h.requests, withoutMethod method h.notifications⟩

/-- Who answers a request of a method. -/
def request? (method : String) (h : Handlers) : Option RequestHandler :=
  match h.requests.lookup method with
  | some (.user kind script) => some (.user kind script)
  | _ => (ReservedRequest.ofMethod? method).map .reserved

/-- Who takes a notification of a method. -/
def notification? (method : String) (h : Handlers) : Option NotificationHandler :=
  match h.notifications.lookup method with
  | some .reserved | none => (ReservedNotification.ofMethod? method).map .reserved
  | some e => some (.user e)

end Handlers

/-- The capabilities the server has registered, by identifier. -/
abbrev Registrations := Fields

namespace Registrations

/-- The identifier of an item; without one it is not registered. -/
def idOf (item : Json) : String := (item.fieldD "id").textOrEmpty

def addItem (rs : Registrations) (item : Json) : Registrations :=
  let id := Text.trim (idOf item)
  if !item.isObject || id.isEmpty then rs else Fields.put id item rs

def removeItem (rs : Registrations) (item : Json) : Registrations :=
  if !item.isObject then rs else Fields.remove (idOf item) rs

/-- Takes the items of a request to register. -/
def register (params : Json) (rs : Registrations) : Except Fault Registrations := do
  return (← (params.fieldD "registrations").itemsOrNone).foldl addItem rs

/-- Takes the items of a request to unregister; the key of the list is misspelt in the protocol, and
both spellings are read. -/
def unregister (params : Json) (rs : Registrations) : Except Fault Registrations := do
  let items ← ((params.fieldD "unregisterations").orElse
    (params.fieldD "unregistrations")).itemsOrNone
  return items.foldl removeItem rs

end Registrations

end GhostText
