import GhostText.Proofs.Run.Conduct
import Mathlib.Logic.Relation

/-!
# Steps

What the program does in one go, that is, without running anything on behalf of others meanwhile.
The steps are grouped by the part of the world they change. Whatever a host does, at any depth of
its scripts, the world goes a row of such steps, and so what every step keeps a whole run keeps.
-/

namespace GhostText

/-- The methods of the requests whose result tells of the account. -/
def accountMethods : List String := ["checkStatus", "signInConfirm", "signOut"]

def Call.isOfAccount (c : Call) : Bool := accountMethods.contains c.method

def isDocumentMethod (method : String) : Bool :=
  method = "textDocument/didOpen" || method = "textDocument/didChange"

def Json.tellsOfDocument (payload : Json) : Bool :=
  match Message.classify payload with
  | .ok (.notification method _) => isDocumentMethod method
  | _ => false

/-- The notifications by which the server hears what becomes of a completion. -/
def reportMethods : List String := ["notifyShown", "notifyAccepted", "notifyRejected"]

def Json.isReport (payload : Json) : Bool :=
  match Message.classify payload with
  | .ok (.notification method _) => reportMethods.contains method
  | _ => false

def completionsMethod : String := "getCompletions"

/-- An event that is neither a message nor a callback nor the beginning or the end of a session. -/
def Event.isAside : Event → Bool
  | .sent _ => false
  | .calledBack _ _ _ => false
  | .signalled (.sessionStarted _) => false
  | .signalled (.sessionFinished _ _ _) => false
  | .signalled (.sessionSettled _ _) => false
  | _ => true

namespace Action

def writesDocument : Action → Bool
  | .context (.send _) => true
  | .client (.notify method _) => isDocumentMethod method.textOrEmpty
  | .client (.send _) => true
  | .client (.openDocument _ _ _ _) => true
  | .client (.changeDocument _ _ _) => true
  | .assistant (.openDocument _ _ _) => true
  | .assistant (.changeDocument _ _ _) => true
  | _ => false

def changesSettings : Action → Bool
  | .controller (.updateSettings _) => true
  | .controller (.bindSettings _) => true
  | .controller (.storeValue _ _) => true
  | _ => false

def draws : Action → Bool
  | .editor (.restore _) => true
  | .editor (.panel _) => true
  | .editor (.showSuggestion _ _) => true
  | .editor (.removeArtifact _) => true
  | _ => false

/-- With these a completion is asked for, or what was asked for may come. -/
def asks : Action → Bool
  | .client (.request _ method _ _ _) => method.textOrEmpty = completionsMethod
  | .client (.receive _) => true
  | .assistant (.completions _ _ _) => true
  | .task (.start _ _) => true
  | .controller .flush => true
  | .controller .requestCompletion => true
  | .controller .tick => true
  | _ => false

/-- With these the host has the answers of the server read, shows completions, or tells the server
itself what becomes of them. -/
def engages : Action → Bool
  | .context (.send _) => true
  | .client (.notify method _) => reportMethods.contains method.textOrEmpty
  | .client (.send _) => true
  | .client (.receive _) => true
  | .assistant (.notifyShown _) => true
  | .assistant (.notifyAccepted _) => true
  | .assistant (.notifyRejected _) => true
  | .controller (.present _) => true
  | _ => false

end Action

/-- What ends a fetch. -/
def Continuation.isOfFetch : Continuation → Bool
  | .fetched _ _ => true
  | .fetchFailed _ => true
  | _ => false

/-- The reactions of a host end no fetch. -/
theorem World.plain_reactions (r : Reactions Action) :
    ∀ q ∈ World.onResult r ++ World.onError r, q.isOfFetch = false := by
  intro q hq
  simp only [World.onResult, World.onError, World.hostContinuation, List.mem_append, List.mem_map]
    at hq
  rcases hq with ⟨c, -, rfl⟩ | ⟨c, -, rfl⟩ <;> rfl

/-- What may happen in a run: the conduct of its host, the calls that may still settle once they
wait no more, since their answer is in hand, whether fetches start and end, and whether anything
else happens to completions than that the sessions that show them end. -/
structure Regime extends Conduct where
  holds : (id : Nat) → Prop
  asks : Prop
  engages : Prop
  asks_of : ∀ a, does a → a.asks → asks
  engages_of : ∀ a, does a → a.engages → engages

namespace Regime

variable (k : Regime)

/-- Whether the answers to fetches are read. -/
def reads : Prop := k.asks ∧ k.engages

/-- What may be run on behalf of others. -/
def Permits : Invocation → Prop
  | .script _ s => k.AllowsAll s
  | .deliver _ => k.reads

/-- What may be registered for a call that is made: what ends no fetch, or both ends of one fetch,
which is for the controller or for whoever the host starts it for. -/
structure Admits (id : Nat) (method : String) (treatment : Treatment)
    (onResult onError : List Continuation) : Prop where
  awaits : k.AwaitsAll id (onResult ++ onError)
  account : treatment = .account → method ∈ accountMethods
  asked : method = completionsMethod → k.asks
  fetch : (∀ q ∈ onResult ++ onError, q.isOfFetch = false) ∨ ∃ task sink,
    k.asks ∧ method = completionsMethod ∧ treatment = .completions ∧
      onResult = [.fetched task sink] ∧ onError = [.fetchFailed task] ∧
      (sink = .controller ∨ ∃ position c, k.does (.task (.start position c)))

variable {k}

/-- What ends no fetch may be registered for any call that asks for no completion. -/
theorem Admits.ofPlain {id : Nat} {method : String} {treatment : Treatment}
    {onResult onError : List Continuation} (awaits : k.AwaitsAll id (onResult ++ onError))
    (plain : ∀ q ∈ onResult ++ onError, q.isOfFetch = false) (asked : method ≠ completionsMethod)
    (account : treatment = .account → method ∈ accountMethods) :
    k.Admits id method treatment onResult onError :=
  ⟨awaits, account, fun h => absurd h asked, .inl plain⟩

theorem Admits.asks {id : Nat} {method : String} {treatment : Treatment}
    {onResult onError : List Continuation} (h : k.Admits id method treatment onResult onError) :
    ∀ q ∈ onResult ++ onError, q.isOfFetch = true → k.asks := by
  intro q hq hf
  rcases h.fetch with plain | ⟨_, _, asks, -⟩
  · simp [plain q hq] at hf
  · exact asks

end Regime

/-! ## Steps of the client -/

inductive Settling : (Call → Call) → Prop where
  | fulfil (r : Reply) : Settling (Call.fulfil r)
  | reject (f : Fault) : Settling (Call.reject f)

/-- A step of the client. Late is a transport that reports a write as refused after the answer has
come: there a call may settle that was taken from the table before. -/
inductive ClientStep (k : Regime) (late : Prop) (c : Client) : Client → Prop where
  /-- Whatever concerns neither the calls nor the handlers. -/
  | aside {c' : Client} (calls : c'.calls = c.calls) (pending : c'.pending = c.pending)
      (handlers : c'.handlers = c.handlers) : ClientStep k late c c'
  | handlers {h : Handlers} (allowed : k.Handles h) : ClientStep k late c { c with handlers := h }
  | make {method : String} (kind : CallKind) {onResult onError : List Continuation}
      {treatment : Treatment} (admits : k.Admits c.nextId method treatment onResult onError) :
      ClientStep k late c (c.addCall (.start c.nextId method kind onResult onError) treatment)
  | settle {p : PendingCall} {f : Call → Call} (waiting : p ∈ c.pending) (settling : Settling f) :
      ClientStep k late c ((c.dropPending p.id).updateCall p.id f)
  /-- The result of a call is in hand and still to be interpreted. -/
  | take (id : Nat) (taken : late ∨ ∃ p ∈ c.pending, p.id = id ∧ p.treatment = .account) :
      ClientStep k late c (c.dropPending id)
  | settleTaken {id : Nat} {call : Call} {f : Call → Call} (found : c.call? id = some call)
      (pending : call.status = .pending) (absent : ∀ p ∈ c.pending, p.id ≠ id)
      (taken : late ∨ call.isOfAccount) (held : k.holds id) (settling : Settling f) :
      ClientStep k late c (c.updateCall id f)
  | await {id : Nat} (onResult onError : List Continuation)
      (awaits : k.AwaitsAll id (onResult ++ onError))
      (plain : ∀ q ∈ onResult ++ onError, q.isOfFetch = false) :
      ClientStep k late c (c.updateCall id (Call.await onResult onError))
  | cancel {id : Nat} {call : Call} (found : c.call? id = some call) (pending : call.isPending) :
      ClientStep k late c ((c.updateCall id Call.cancel).dropPending id)
  | disconnect : ClientStep k late c c.disconnect

/-! ## Steps of the other parts -/

inductive TransportStep (k : Regime) (t : Transport) : Transport → Prop where
  | arrive (answers : List Json) : TransportStep k t { t with arriving := answers }
  | accept (b : Bool) (allowed : k.does (.client (.acceptWrites b))) :
      TransportStep k t { t with accepting := b }

/-- A step of the assistant that leaves the version of the document as it is. -/
inductive AssistantStep (a : Assistant) : Assistant → Prop where
  | status (s : Status) : AssistantStep a { a with status := s }
  | subscriptions (s : List Subscription) (next : Nat) :
      AssistantStep a { a with subscriptions := s, nextNumber := next }

inductive EditorStep (k : Regime) (e : Editor) : Editor → Prop where
  | insert (text : Text) : EditorStep k e { e with canvas := { e.canvas with
      buffer := e.canvas.buffer.splice e.canvas.buffer.caret e.canvas.buffer.caret text } }
  | replace {range : UncheckedRange} {o : Nat × Nat} (text : Text)
      (inside : e.canvas.buffer.offsets range = .ok o) :
      EditorStep k e { e with canvas := { e.canvas with
        buffer := e.canvas.buffer.splice o.1 o.2 text } }
  | move {p : UncheckedPosition} {b : Buffer} (moved : e.canvas.buffer.moveTo p = .ok b) :
      EditorStep k e { e with canvas := { e.canvas with buffer := b } }
  | undo {b : Buffer} (undone : e.canvas.buffer.undo? = some b) :
      EditorStep k e { e with canvas := { e.canvas with buffer := b } }
  | draw {a : Action} (c : Canvas) (allowed : k.does a) (draws : a.draws) :
      EditorStep k e { e with canvas := c }
  | focus (focused : Bool) : EditorStep k e { e with focused := focused }
  | filePath (path : String) : EditorStep k e { e with filePath := path }
  | block (b : Bool) (allowed : k.does (.editor (.blockSignals b))) :
      EditorStep k e { e with blocked := b }

inductive FetchStep (k : Regime) (t : Fetches) : Fetches → Prop where
  | configure (s : FetchSettings) (allowed : k.does (.task (.configure s))) :
      FetchStep k t (World.withSettings s t)
  | folder (folder : String) : FetchStep k t { t with workspaceFolder := .str folder }
  | file (path languageId : String) :
      FetchStep k t { t with activeFile := .str path, languageId := .str languageId }
  | indentation (tabSize insertSpaces : Json) :
      FetchStep k t { t with tabSize := tabSize, insertSpaces := insertSpaces }
  | start (asked : k.asks) : FetchStep k t { t with
      started := t.started + 1, underWay := t.underWay ++ [⟨t.started + 1, false⟩] }
  | cancel (id : Int) : FetchStep k t { t with
      underWay := t.underWay.map fun t =>
        if (t.id : Int) = id then { t with cancelled := true } else t }
  | cancelAll : FetchStep k t { t with
      underWay := t.underWay.map fun t => { t with cancelled := true } }
  | finish (id : Nat) (asked : k.asks) :
      FetchStep k t { t with underWay := t.underWay.filter fun t => t.id != id }

inductive ControllerStep (k : Regime) (c : Controller) : Controller → Prop where
  | takeChange : ControllerStep k c { c with pending := none }
  | stopTimer : ControllerStep k c { c with timer := none }
  | dropChange : ControllerStep k c { c with pending := none, timer := none }
  | stopListening : ControllerStep k c { c with listening := false }
  | noteText (text : Text) : ControllerStep k c { c with latest := text }
  | noteChange (change : PendingChange) (delay : Int) :
      ControllerStep k c { c with pending := some change, timer := some delay }
  | configure {a : Action} (config : Config) (allowed : k.does a) (settings : a.changesSettings) :
      ControllerStep k c { c with config := config }

/-- A completion is put in the place of a session that has ended. -/
def World.bring (completion : Completion) (c : Controller) (w : World) : World :=
  let n := w.sessions.length
  let s := Session.propose completion c.config.inlineInSource c.config.acceptKey true true
  let w := { w with sessions := w.sessions ++ [s] }
  let w := w.updateController fun c => { c with session := some n }
  (w.startSession n s).signal (.sessionStarted completion.uuid)

/-- A step of the sessions, with all that it brings about in the editor and the controller. A
session that is shown is withdrawn first when it ends, and only later it is told what has become of
it; one that was never shown is rejected at once. -/
inductive SessionStep (k : Regime) (w : World) : World → Prop where
  | propose {completion acceptKey : Json} {inline withTasks : Bool} {s : Session}
      (fresh : s.artifact = none) (unended : s.isOpen)
      (allowed : k.does (.session (.create completion inline acceptKey withTasks))) :
      SessionStep k w { w with sessions := w.sessions ++ [s] }
  | start {n : Nat} {s : Session} (found : w.session? n = some s) (fresh : s.artifact = none)
      (unfinished : s.isFinished = false) (allowed : k.does (.session (.start n))) :
      SessionStep k w (w.startSession n s)
  | bring (completion : Completion) {c : Controller} (controller : w.controller = some c)
      (engages : k.engages) : SessionStep k w (w.bring completion c)
  | withdraw {n : Nat} {s : Session} (found : w.session? n = some s) (unended : s.isOpen)
      (shown : s.artifact.isSome = true) :
      SessionStep k w ((w.beginClosing n).removeSuggestion n s).2
  | discard {n : Nat} {s : Session} (reason : String) (found : w.session? n = some s)
      (unended : s.isOpen) (fresh : s.artifact = none) :
      SessionStep k w ((w.beginClosing n).finishRejected n s.uuid reason)
  | fail {n : Nat} {s : Session} (reason : String) (found : w.session? n = some s)
      (closing : s.closing = true) (unfinished : s.isFinished = false) :
      SessionStep k w (w.finishRejected n s.uuid reason)
  | succeed {n : Nat} {s : Session} (found : w.session? n = some s) (closing : s.closing = true)
      (unfinished : s.isFinished = false) : SessionStep k w (w.finishAccepted n s.uuid)

/-- A step that tells the server of the controller's document. -/
inductive DocumentStep (w : World) : World → Prop where
  | openUnder (uri : String) : DocumentStep w
      ((w.openAtZero (.str uri) (.str w.editor.languageId)
        (.str (String.ofList w.buffer.text))).markOpened w.buffer.text)
  | tell {c : Controller} {uri : String} {change : PendingChange} {edits : Option (List TextChange)}
      (controller : w.controller = some c) (document : World.documentUri w = .ok uri)
      (told : World.editsFor c change w = .ok edits) : DocumentStep w
        ((World.changeVersion (.str uri) (World.contentChanges change edits) w).2.updateController
          fun c => { c with synced := change.text })

/-! ## Steps of the world -/

/-- Whether a call has been answered or refused. -/
def World.Settled (w : World) (id : Nat) : Prop :=
  ∃ c, w.client.call? id = some c ∧ c.status ≠ .pending

/-- The settings of the store that the controller follows. -/
def Host.settings (h : Host) : Option Fields := h.binding.map fun b => b.store.data

inductive Step (k : Regime) (w : World) : World → Prop where
  | note {e : Event} (aside : e.isAside) : Step k w (w.record e)
  /-- A callback runs only for a call that has settled. -/
  | callBack {id : Nat} {label : String} (kind : CallbackKind) (o : Outcome)
      (waits : k.waits id label) (settled : w.Settled id) :
      Step k w (w.record (.calledBack label kind o))
  | send {payload : Json} (accepting : w.transport.accepting)
      (allowed : payload.tellsOfDocument → ∃ a, k.does a ∧ a.writesDocument)
      (report : payload.isReport → k.engages) :
      Step k w (w.record (.sent payload))
  | transport {t : Transport} (step : TransportStep k w.transport t) :
      Step k w { w with transport := t }
  | client {c : Client} (step : ClientStep k w.transport.refusesAnswered w.client c) :
      Step k w { w with client := c }
  | assistant {a : Assistant} (step : AssistantStep w.assistant a) :
      Step k w { w with assistant := a }
  /-- The host itself counts the versions of a document. -/
  | version {a : Action} (n : Nat) (allowed : k.does a) (writes : a.writesDocument) :
      Step k w { w with assistant := { w.assistant with version := n } }
  | editor {e : Editor} (step : EditorStep k w.editor e) : Step k w { w with editor := e }
  | fetches {t : Fetches} (step : FetchStep k w.fetches t) : Step k w { w with fetches := t }
  | controller {c c' : Controller} (found : w.controller = some c) (step : ControllerStep k c c') :
      Step k w { w with controller := some c' }
  | session {w' : World} (step : SessionStep k w w') : Step k w w'
  | document {w' : World} (step : DocumentStep w w') : Step k w w'
  /-- The store that the controller follows changes only with its settings. -/
  | host {h : Host}
      (allowed : ∀ label script, (label, script) ∈ h.subscribers → k.AllowsAll script)
      (settings : h.settings = w.host.settings ∨ ∃ a, k.does a ∧ a.changesSettings) :
      Step k w { w with host := h }
  | startup (s : Option Startup) : Step k w { w with startup := s }

/-- A row of steps. -/
abbrev Steps (k : Regime) : World → World → Prop := Relation.ReflTransGen (Step k)

end GhostText
