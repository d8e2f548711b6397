import GhostText.Proofs.Client.Tally

/-!
# Handshakes

A handshake is four messages: the server is asked to start, told that it has, told who it is talking
to, and asked for its version. This module says what a host hands over with one, what else a host
may do meanwhile, which messages of a handshake a stretch of a run hands to the transport, and how
far a handshake has got as the calls of the client show it.
-/

namespace GhostText

/-! ## The messages -/

namespace Handshake

/-- The messages of a handshake, in their order. -/
def methods : List String := ["initialize", "initialized", "setEditorInfo", "getVersion"]

/-- The one of them that is no request. -/
def notice : String := "initialized"

/-- The request that must have succeeded before a message is sent. -/
def before? : String → Option String
  | "initialized" => some "initialize"
  | "setEditorInfo" => some "initialize"
  | "getVersion" => some "setEditorInfo"
  | _ => none

def isGreeting (method : String) : Bool := methods.contains method

end Handshake

def Json.greeting? (payload : Json) : Option String :=
  match payload.field? "method" with
  | some (.str method) => if Handshake.isGreeting method then some method else none
  | _ => none

def Event.greeting? : Event → Option String
  | .sent payload => payload.greeting?
  | _ => none

def Call.isGreeting (c : Call) : Bool := Handshake.isGreeting c.method

/-! ## The host -/

/-- What a host hands over with a handshake, its callbacks among it. -/
structure Greeting where
  editor : Json
  plugin : Json
  onReady : Option (Callback Action)
  onError : Option (Callback Action)

namespace Greeting

variable (g : Greeting)

def handshake : Handshake where
  editorInfo := g.editor
  pluginInfo := g.plugin
  onReady := g.onReady.map (.host .ready)
  onError := g.onError.map (.host .error)

def action (folder trace processId : Json) : Action :=
  .assistant (.handshake folder g.editor g.plugin trace processId g.onReady g.onError)

def callbacks : List (Callback Action) := g.onReady.toList ++ g.onError.toList

def labels : List String := g.callbacks.map Callback.label

/-- Both callbacks are given, and what is said of the editor and of its extension can be read; where
nothing is said of them that is so. -/
structure IsFull : Prop where
  onReady : g.onReady.isSome = true
  onError : g.onError.isSome = true
  editor : ∃ info, World.infoOf (g.editor.orElse World.defaultInfo) = .ok info
  plugin : ∃ info, World.infoOf (g.plugin.orElse World.defaultInfo) = .ok info

end Greeting

namespace Action

/-- What a host may do beside a handshake: whatever a client or an assistant offers but the messages
of a handshake. -/
def isCivil : Action → Bool
  | .within _ _ => true
  | .raise _ => true
  | .context (.send m) => m.toJson.greeting?.isNone
  | .context _ => true
  | .client (.request _ method _ _ _) => !Handshake.isGreeting method.textOrEmpty
  | .client (.notify method _) => !Handshake.isGreeting method.textOrEmpty
  | .client (.send m) => m.toJson.greeting?.isNone
  | .client (.startServer _ _) => false
  | .client .sendInitialized => false
  | .client _ => true
  | .assistant (.version _) => false
  | .assistant (.editorInfo _ _ _) => false
  | .assistant (.handshake _ _ _ _ _ _ _) => false
  | .assistant _ => true
  | _ => false

def givesUp : Action → Bool
  | .client .close => true
  | .client .stopTransport => true
  | .client (.cancelCall _) => true
  | .client (.cancelRequest _) => true
  | _ => false

end Action

namespace Conduct

variable (k : Conduct)

/-- The host starts no other handshake, and no other callback has a label of this one's. -/
structure Civil (g : Greeting) : Prop where
  does : ∀ a, k.does a → a.isCivil
  labels : ∀ id label, k.waits id label → label ∉ g.labels
  scripts : ∀ c ∈ g.callbacks, k.AllowsAll c.script

def Patient : Prop := ∀ a, k.does a → a.givesUp = false

end Conduct

namespace World

/-- What the callbacks of a handshake were told, in order. -/
def heard (g : Greeting) (w : World) : List (String × CallbackKind × Outcome) :=
  w.callbacks.filter fun x => g.labels.contains x.1

/-! ## What is handed to the transport -/

/-- A request of a method was answered with a result. -/
def Succeeded (method : String) (r : Reply) (w : World) : Prop :=
  ∃ c ∈ w.client.calls, c.method = method ∧ c.status = .fulfilled ∧ c.result = some r

/-- What must come before a message of a handshake has succeeded. -/
def MayGreet (method : String) (w : World) : Prop :=
  ∀ m, Handshake.before? method = some m → ∃ r, w.Succeeded m r

def written (w : World) : List String := w.events.filterMap Event.greeting?

def requested (w : World) : List String :=
  (w.client.calls.map Call.method).filter Handshake.isGreeting

/-- The messages of a handshake that are handed to the transport in a stretch of a run, each when it
may be. The transport writes it or refuses it; a request leaves a call in either case. -/
inductive Greets : List String → World → World → Prop
  | nothing {w w' : World} (written : w'.written = w.written)
      (requested : w'.requested = w.requested) : Greets [] w w'
  | notice {w : World} (may : w.MayGreet Handshake.notice) (params : Json) :
      Greets [Handshake.notice] w
        (w.transmit (Message.notification Handshake.notice params).toJson).2
  | request {w : World} {c : Call} (known : c.isGreeting) (asked : c.method ≠ Handshake.notice)
      (may : w.MayGreet c.method) (treatment : Treatment) (params : Json) :
      Greets [c.method] w ((w.updateClient fun k => k.addCall c treatment).transmit
        (Message.request (.int c.id) c.method params).toJson).2
  | append {w w' w'' : World} {ms ms' : List String} (first : Greets ms w w')
      (second : Greets ms' w' w'') : Greets (ms ++ ms') w w''

end World

/-! ## How far a handshake has got -/

namespace Greeting

inductive Stage where
  | starting
  | informing
  | asking
  deriving DecidableEq, Repr

namespace Stage

def method : Stage → String
  | .starting => "initialize"
  | .informing => "setEditorInfo"
  | .asking => "getVersion"

/-- The messages that were handed over when the request of a stage was. -/
def handed : Stage → List String
  | .starting => ["initialize"]
  | .informing => ["initialize", "initialized", "setEditorInfo"]
  | .asking => Handshake.methods

/-- What goes on with the result of its request. -/
def onResult (g : Greeting) : Stage → List Continuation
  | .starting => [.afterStart g.handshake]
  | .informing => [.afterEditorInfo g.handshake]
  | .asking => World.reactions g.handshake.onReady

/-- What goes on with the outcome of its request. -/
def core (g : Greeting) (s : Stage) (v : Verdict) : List Continuation :=
  v.choose (s.onResult g) (World.reactions g.handshake.onError)

end Stage

inductive Progress where
  /-- The request of a stage has not settled. -/
  | waiting (s : Stage) (id : Nat)
  /-- No call goes on with it. -/
  | halted (handed : List String) (heard : List (String × CallbackKind × Outcome))

namespace Progress

def handed : Progress → List String
  | .waiting s _ => s.handed
  | .halted handed _ => handed

def heard : Progress → List (String × CallbackKind × Outcome)
  | .waiting _ _ => []
  | .halted _ heard => heard

/-- It has halted, and no callback was told so. -/
def Silent : Progress → Prop
  | .waiting _ _ => False
  | .halted _ heard => heard = []

/-- What goes on with the outcome of a call. -/
def core (g : Greeting) (v : Verdict) (id : Nat) : Progress → List Continuation
  | .waiting s i => if id = i then s.core g v else []
  | .halted _ _ => []

/-- How far it has got once a call has settled whose outcome is still to be told. -/
def settled (id : Nat) : Progress → Progress
  | .waiting s i => if id = i then .halted s.handed [] else .waiting s i
  | .halted handed heard => .halted handed heard

end Progress

/-- What a callback of the handshake may be told: on success the version the server has answered
with, else what has failed. -/
inductive Rightly (g : Greeting) (w : World) : String × CallbackKind × Outcome → Prop
  | ready {c : Callback Action} {r : Reply} (given : g.onReady = some c)
      (answered : w.Succeeded "getVersion" r) : Rightly g w (c.label, .ready, .reply r)
  | error {c : Callback Action} (given : g.onError = some c) (f : Fault) :
      Rightly g w (c.label, .error, .fault f)

end Greeting

/-! ## What of it the calls show -/

namespace Conduct

variable (k : Conduct)

/-- What has nothing to do with the handshake that goes on. -/
def Plain (id : Nat) : Continuation → Prop
  | .serverStarted => True
  | .serverNotStarted => True
  | .reaction (.host _ c) => k.Heeds id c
  | _ => False

/-- Some continuations with plain ones around them. -/
def Around (id : Nat) (core qs : List Continuation) : Prop :=
  ∃ before after, qs = before ++ core ++ after ∧ ∀ q ∈ before ++ after, k.Plain id q

end Conduct

namespace Client

/-- The calls go on with a handshake that has got so far, and with no other. -/
structure Carries (k : Conduct) (g : Greeting) (p : Greeting.Progress) (c : Client) : Prop where
  handlers : k.Handles c.handlers
  ledger : c.Ledger
  asIs : ∀ q ∈ c.pending, ∀ call, c.call? q.id = some call → call.isGreeting → q.treatment = .asIs
  settled : ∀ call ∈ c.calls, call.status ≠ .pending → ∃ v, call.verdict? = some v
  tabled : k.Patient → ∀ call ∈ c.calls, call.isGreeting → call.status = .pending →
    ⟨call.id, call.method, .asIs⟩ ∈ c.pending
  around : ∀ call ∈ c.calls, ∀ v : Verdict, k.Around call.id (p.core g v call.id) (v.waiting call)
  waits : ∀ s id, p = .waiting s id →
    ∃ call, c.call? id = some call ∧ call.method = s.method ∧ call.status = .pending

end Client

structure World.Reached (k : Conduct) (g : Greeting) (p : Greeting.Progress)
    (w : World) : Prop where
  client : w.client.Carries k g p
  subscribers : ∀ label script, (label, script) ∈ w.host.subscribers → k.AllowsAll script
  order : p.handed <+: Handshake.methods
  heard : w.heard g = p.heard
  once : p.heard.length ≤ 1
  rightly : ∀ x ∈ p.heard, g.Rightly w x

end GhostText
