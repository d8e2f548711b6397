import GhostText.Startup.Finish

/-!
# Two runs side by side

What is done in a run does not depend on how much the client logs, nor on what has happened before.
Two worlds are abreast if they are one world reached from two outsets, a verbosity and a list of
events each, and what was said on the way is the same for both. How much of what was said stands
among the events is all that the verbosity decides.
-/

namespace GhostText

def Verbosity.keeps (level : LogLevel) : Verbosity → Bool
  | .off => false
  | .error => LogLevel.error.number ≤ level.number
  | .debug => true

/-- Whether a record is kept is a matter of the verbosity alone. -/
theorem Client.logs_eq (level : LogLevel) (c : Client) :
    c.logs level = c.verbosity.keeps level := by
  unfold Client.logs Verbosity.keeps
  cases c.verbosity <;> rfl

/-! ## What is said -/

/-- The log records of the parts of the program that do not ask the client how much is logged. What
the transport has to say is logged by a start from the command line only. -/
inductive Remark (launched : Bool) : LogLevel → String → Prop
  | skipped (header : Frame.Bytes) : Remark launched .debug
      ("Skipping frame with malformed header: " ++ Text.quotedBytes (header.take 80))
  | status (h : launched) (text : String) : Remark launched .info text
  | requestFailed (f : Fault) : Remark launched .error ("Copilot request failed: " ++ f.message)
  | fetchFailed (id : Nat) (f : Fault) : Remark launched .debug
      ("Completion task " ++ toString id ++ " failed: " ++ f.message)
  | rejected (uuid reason : String) : Remark launched .debug
      ("Rejected completion " ++ uuid ++ " (" ++ reason ++ ")")
  | accepted (uuid : String) : Remark launched .debug ("Accepted completion " ++ uuid)
  | toggled (entering : Bool) : Remark launched .debug
      ("Rejecting completion before toggling source mode " ++ (if entering then "on" else "off"))
  | lost (uuid : String) : Remark launched .warning
      ("Suggestion " ++ uuid ++ " can no longer be located; rejecting it")
  | unapplied (uuid : String) (f : Fault) : Remark launched .warning
      ("Could not apply completion " ++ uuid ++ ": " ++ f.message)
  | edits (edits : List TextChange) : Remark launched .debug
      ("Sending " ++ toString edits.length ++ " incremental change(s)")

def Event.isLogged : Event → Bool
  | .logged _ _ => true
  | _ => false

/-- What may be said in a run: something is done or remarked, which is noted at any verbosity, the
client has something to log, and a verbosity is chosen. -/
inductive Saying where
  | event (e : Event)
  | record (level : LogLevel) (text : String)
  | choose (v : Verbosity)

namespace Saying

def notedAt (v : Verbosity) : Saying → List Event
  | .event e => [e]
  | .record level text => if v.keeps level then [.logged level text] else []
  | .choose _ => []

/-- The verbosity once it was said. -/
def verbosity (v : Verbosity) : Saying → Verbosity
  | .choose v => v
  | _ => v

/-- No log record but a remark is noted at any verbosity. -/
def Fits (launched : Bool) : Saying → Prop
  | .event (.logged level text) => Remark launched level text
  | _ => True

end Saying

/-- The events that a list of sayings leaves, from a verbosity on. -/
def noted : Verbosity → List Saying → List Event
  | _, [] => []
  | v, s :: said => s.notedAt v ++ noted (s.verbosity v) said

def verbosityAfter (v : Verbosity) (said : List Saying) : Verbosity := said.foldl Saying.verbosity v

/-- What is noted of two stretches is noted of each at the verbosity it begins with. -/
theorem noted_append (v : Verbosity) (said more : List Saying) :
    noted v (said ++ more) = noted v said ++ noted (verbosityAfter v said) more := by
  induction said generalizing v with
  | nil => rfl
  | cons s said ih => simp [noted, verbosityAfter, ih]

/-! ## Worlds from two outsets -/

/-- Where a run begins: whether it was started from the command line, a verbosity, and what has
happened before. -/
structure Outset where
  launched : Bool
  verbosity : Verbosity
  past : List Event

namespace World

/-- The world with another verbosity and other events. -/
def under (v : Verbosity) (es : List Event) (w : World) : World :=
  { w with client := { w.client with verbosity := v }, events := es }

/-- The world once some things were said from an outset on. -/
def since (o : Outset) (said : List Saying) (w : World) : World :=
  w.under (verbosityAfter o.verbosity said) (o.past ++ noted o.verbosity said)

/-- One world from two outsets, with the same said on the way. -/
def Abreast (o o' : Outset) (w w' : World) : Prop :=
  ∃ u said, u.startup.isSome = o.launched ∧ (∀ s ∈ said, s.Fits o.launched) ∧
    w = since o said u ∧ w' = since o' said u

structure Agree {α : Type} (o o' : Outset) (x x' : α × World) : Prop where
  answer : x'.1 = x.1
  abreast : Abreast o o' x.2 x'.2

end World

def Runner.Agrees (run : Runner) (o o' : Outset) : Prop :=
  ∀ i w w', World.Abreast o o' w w' → World.Agree o o' (run i w) (run i w')

namespace World

variable {α β : Type} {o o' : Outset}

/-- A world and itself, each with what it begins with. -/
theorem abreast_under (v v' : Verbosity) (es es' : List Event) (w : World) :
    Abreast ⟨w.startup.isSome, v, es⟩ ⟨w.startup.isSome, v', es'⟩ (w.under v es)
      (w.under v' es') :=
  ⟨w, [], rfl, by simp, by simp [since, verbosityAfter, noted],
    by simp [since, verbosityAfter, noted]⟩

namespace Abreast

variable {w w' : World} (h : Abreast o o' w w')

/-- Worlds that are abreast may be taken for any such. -/
@[elab_as_elim] theorem onward {P : World → World → Prop} {x x' : World} (h : Abreast o o' x x')
    (step : ∀ u u', Abreast o o' u u' → P u u') : P x x' :=
  step x x' h

include h

/-- What does not read the verbosity or the events reads the same in both. -/
theorem same {r : World → β} (hr : ∀ u v es, r (under v es u) = r u) : r w' = r w := by
  obtain ⟨u, said, -, -, rfl, rfl⟩ := h
  rw [since, since, hr, hr]

theorem isSome_startup : w.startup.isSome = o.launched := by
  obtain ⟨u, said, hu, -, rfl, rfl⟩ := h
  exact hu

/-- What neither reads nor changes the verbosity or the events. -/
theorem map {f : World → World} (hf : ∀ u v es, f (under v es u) = under v es (f u))
    (hs : ∀ u, (f u).startup.isSome = u.startup.isSome) :
    Abreast o o' (f w) (f w') := by
  obtain ⟨u, said, hu, hfits, rfl, rfl⟩ := h
  exact ⟨f u, said, (hs u).trans hu, hfits, hf .., hf ..⟩

/-- Something more is said. What it is may depend on all but the verbosity and the events. -/
theorem say {f : World → World} {s : World → Saying} (hs : ∀ u, (s u).Fits o.launched)
    (hf : ∀ u v es, f (under v es u) = under ((s u).verbosity v) (es ++ (s u).notedAt v) u) :
    Abreast o o' (f w) (f w') := by
  obtain ⟨u, said, hu, hfits, rfl, rfl⟩ := h
  have hfits' : ∀ t ∈ said ++ [s u], t.Fits o.launched :=
    List.forall_mem_append.2 ⟨hfits, by simpa using hs u⟩
  refine ⟨u, said ++ [s u], hu, hfits', ?_, ?_⟩ <;>
  · rw [since, hf]
    simp [since, noted_append, noted, verbosityAfter]

theorem record (e : Event) (he : e.isLogged = false) :
    Abreast o o' (w.record e) (w'.record e) := by
  refine h.say (s := fun _ => .event e) (fun _ => ?_) fun _ _ _ => rfl
  cases e with
  | logged => cases he
  | _ => trivial

/-- A record of the program's own is the same on both sides. -/
theorem log {level : LogLevel} {text : String} (hr : Remark o.launched level text) :
    Abreast o o' (w.log level text) (w'.log level text) :=
  h.say (s := fun _ => .event (.logged level text)) (fun _ => hr) fun _ _ _ => rfl

/-- A record of the client is said whether it is kept or not. -/
theorem clientLog (level : LogLevel) (text : String) :
    Abreast o o' (w.clientLog level text) (w'.clientLog level text) := by
  refine h.say (s := fun u => .record level (u.client.logTag ++ " " ++ text))
    (fun _ => trivial) fun u v es => ?_
  simp only [World.clientLog, Client.logs_eq, under, Saying.notedAt, Saying.verbosity]
  split <;> simp [World.log, World.record, Client.logTag]

/-- From here on both have the verbosity that is chosen. -/
theorem choose (v : Verbosity) :
    Abreast o o' (w.updateClient fun c => { c with verbosity := v })
      (w'.updateClient fun c => { c with verbosity := v }) :=
  h.say (s := fun _ => .choose v) (fun _ => trivial) fun u _ es => by
    simp [World.updateClient, under, Saying.notedAt, Saying.verbosity]

theorem signal (s : Signal) : Abreast o o' (w.signal s) (w'.signal s) := h.record _ rfl

/-! ## Changes of one part -/

/-- A change of the client that does not look at its verbosity. -/
theorem updateClient {f : Client → Client}
    (hf : ∀ c v, f { c with verbosity := v } = { f c with verbosity := v }) :
    Abreast o o' (w.updateClient f) (w'.updateClient f) :=
  h.map (fun u v es => congrArg (fun c => { u with client := c, events := es }) (hf u.client v))
    fun _ => rfl

theorem withTransport (t : Transport) :
    Abreast o o' { w with transport := t } { w' with transport := t } :=
  h.map (f := fun w => { w with transport := t }) (fun _ _ _ => rfl) fun _ => rfl

theorem withSessions (l : List Session) :
    Abreast o o' { w with sessions := l } { w' with sessions := l } :=
  h.map (f := fun w => { w with sessions := l }) (fun _ _ _ => rfl) fun _ => rfl

theorem updateAssistant (f : Assistant → Assistant) :
    Abreast o o' (w.updateAssistant f) (w'.updateAssistant f) :=
  h.map (fun _ _ _ => rfl) fun _ => rfl

theorem updateEditor (f : Editor → Editor) :
    Abreast o o' (w.updateEditor f) (w'.updateEditor f) :=
  h.map (fun _ _ _ => rfl) fun _ => rfl

theorem updateCanvas (f : Canvas → Canvas) :
    Abreast o o' (w.updateCanvas f) (w'.updateCanvas f) :=
  h.map (fun _ _ _ => rfl) fun _ => rfl

theorem updateBuffer (f : Buffer → Buffer) :
    Abreast o o' (w.updateBuffer f) (w'.updateBuffer f) :=
  h.map (fun _ _ _ => rfl) fun _ => rfl

theorem updateFetches (f : Fetches → Fetches) :
    Abreast o o' (w.updateFetches f) (w'.updateFetches f) :=
  h.map (fun _ _ _ => rfl) fun _ => rfl

theorem updateHost (f : Host → Host) : Abreast o o' (w.updateHost f) (w'.updateHost f) :=
  h.map (fun _ _ _ => rfl) fun _ => rfl

theorem updateController (f : Controller → Controller) :
    Abreast o o' (w.updateController f) (w'.updateController f) :=
  h.map (fun _ _ _ => rfl) fun _ => rfl

theorem updateStartup (f : Startup → Startup) :
    Abreast o o' (w.updateStartup f) (w'.updateStartup f) :=
  h.map (fun _ _ _ => rfl) fun _ => Option.isSome_map

theorem updateSession (n : Nat) (f : Session → Session) :
    Abreast o o' (w.updateSession n f) (w'.updateSession n f) :=
  h.map (fun _ _ _ => rfl) fun _ => rfl

/-! ## What worlds that are abreast have in common -/

theorem transport : w'.transport = w.transport := h.same fun _ _ _ => rfl

theorem hasAssistant : w'.hasAssistant = w.hasAssistant := h.same fun _ _ _ => rfl

theorem assistant : w'.assistant = w.assistant := h.same fun _ _ _ => rfl

theorem editor : w'.editor = w.editor := h.same fun _ _ _ => rfl

theorem fetches : w'.fetches = w.fetches := h.same fun _ _ _ => rfl

theorem sessions : w'.sessions = w.sessions := h.same fun _ _ _ => rfl

/-- Worlds that are abreast have the same sessions. -/
theorem session? (n : Nat) : w'.session? n = w.session? n := h.same fun _ _ _ => rfl

theorem controller : w'.controller = w.controller := h.same fun _ _ _ => rfl

theorem host : w'.host = w.host := h.same fun _ _ _ => rfl

theorem startup : w'.startup = w.startup := h.same fun _ _ _ => rfl

theorem processId : w'.processId = w.processId := h.same fun _ _ _ => rfl

theorem canvas : w'.canvas = w.canvas := h.same fun _ _ _ => rfl

theorem buffer : w'.buffer = w.buffer := h.same fun _ _ _ => rfl

/-- What does not read the verbosity of a client reads the same in both. -/
theorem client {r : Client → β} (hr : ∀ c v, r { c with verbosity := v } = r c) :
    r w'.client = r w.client :=
  h.same (r := fun w => r w.client) fun u v _ => hr u.client v

theorem call? (id : Nat) : w'.client.call? id = w.client.call? id :=
  h.client (r := Client.call? id) fun _ _ => rfl

theorem context? (n : Nat) : w'.client.context? n = w.client.context? n :=
  h.client (r := Client.context? n) fun _ _ => rfl

/-! ## One after another -/

/-- What keeps worlds abreast one by one keeps them abreast in a row. -/
theorem foldl {f : World → β → World}
    (hf : ∀ b u u', Abreast o o' u u' → Abreast o o' (f u b) (f u' b)) (l : List β) :
    Abreast o o' (l.foldl f w) (l.foldl f w') :=
  List.foldl_rel h fun b _ => hf b

end Abreast

/-- Answers that agree may be taken for any such. -/
@[elab_as_elim] theorem Agree.onward {P : α × World → α × World → Prop} {x x' : α × World}
    (h : Agree o o' x x') (step : ∀ a u u', Abreast o o' u u' → P (a, u) (a, u')) : P x x' := by
  obtain ⟨a, u⟩ := x
  obtain ⟨a', u'⟩ := x'
  obtain ⟨rfl, hu⟩ := h
  exact step a' u u' hu

theorem Abreast.agree {w w' : World} (h : Abreast o o' w w') (a : α) :
    Agree o o' (a, w) (a, w') :=
  ⟨rfl, h⟩

/-- An answer made of another one. -/
theorem Agree.map {x x' : α × World} (h : Agree o o' x x') (f : α → β) :
    Agree o o' (f x.1, x.2) (f x'.1, x'.2) :=
  ⟨congrArg f h.answer, h.abreast⟩

theorem Agree.foldl {f : α × World → β → α × World} {x x' : α × World} (h : Agree o o' x x')
    (hf : ∀ b r r', Agree o o' r r' → Agree o o' (f r b) (f r' b)) (l : List β) :
    Agree o o' (l.foldl f x) (l.foldl f x') :=
  List.foldl_rel h fun b _ => hf b

/-- A listener is told in both, and fails in both or in neither. -/
theorem Agree.tell {x : Act World Unit} {w w' : World} (h : Agree o o' (x w) (x w')) :
    Abreast o o' (w.tell x) (w'.tell x) := by
  unfold World.tell
  refine h.onward fun a u u' hu => ?_
  cases a with
  | ok _ => exact hu
  | error f => exact hu.record _ rfl

/-- The failure of a callback is logged on both sides, each at its own verbosity. -/
theorem Agree.callBack {x : Act World Unit} {w w' : World} (h : Agree o o' (x w) (x w')) :
    Abreast o o' (w.callBack x) (w'.callBack x) := by
  unfold World.callBack
  refine h.onward fun a u u' hu => ?_
  cases a with
  | ok _ => exact hu
  | error f => exact hu.clientLog ..

end World

end GhostText
