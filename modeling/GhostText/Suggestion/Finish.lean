import GhostText.Assistant.Report

/-!
# The end of a session

A session that ends stops listening to the editor, takes its suggestion away if that can still be
found, puts back the history from before it, and tells the server what became of the completion.
-/

namespace GhostText.World

/-- The session no longer hears of the editor. -/
def stopListening (n : Nat) (w : World) : World :=
  w.updateEditor fun e => { e with listeners := e.listeners.filter (· != n) }

/-- Takes the suggestion of a session off the canvas, and says whether it could be found there. -/
def removeSuggestion (n : Nat) (s : Session) (w : World) : Bool × World :=
  match s.artifact with
  | none => (false, w)
  | some a =>
    match a.find? w.canvas with
    | none => (false, w)
    | some _ =>
      let r := a.remove w.canvas
      let w := w.updateSession n fun s => { s with artifact := some r.1 }
      (true, (w.updateCanvas fun _ => r.2).updateBuffer fun b => { b with history := s.history })

/-- The controller's slot is free again. -/
def releaseSession (n : Nat) (w : World) : World :=
  w.updateController fun c => if c.session = some n then { c with session := none } else c

/-- Tells that a session has ended. -/
def announceEnd (n : Nat) (w : World) : World :=
  match w.session? n with
  | none => w
  | some s =>
    if s.controlled then
      (w.releaseSession n).signal (.sessionFinished s.uuid s.state s.reason)
    else w.signal (.sessionSettled s.uuid s.state)

def finishRejected (n : Nat) (uuid reason : String) (w : World) : World :=
  let w := w.updateSession n fun s => { s with state := .rejected, reason := reason }
  let w := w.notifyRejected [uuid]
  let w := w.log .debug ("Rejected completion " ++ uuid ++ " (" ++ reason ++ ")")
  w.announceEnd n

def finishAccepted (n : Nat) (uuid : String) (w : World) : World :=
  let w := w.updateSession n fun s => { s with state := .accepted }
  let w := w.notifyAccepted uuid
  let w := w.log .debug ("Accepted completion " ++ uuid)
  w.announceEnd n

/-- The session is about to end and hears nothing of what its own end does to the editor. -/
def beginClosing (n : Nat) (w : World) : World :=
  (w.updateSession n fun s => { s with closing := true }).stopListening n

/-- Rejects a session, and says whether it was still open. -/
def rejectSession (n : Nat) (reason : String) (w : World) : Bool × World :=
  match w.session? n with
  | none => (false, w)
  | some s =>
    if !s.isOpen then (false, w)
    else (true, (((w.beginClosing n).removeSuggestion n s).2).finishRejected n s.uuid reason)

/-! ## The controller's session -/

def rejectCurrent (reason : String) (w : World) : Bool × World :=
  match w.controller.bind Controller.session with
  | none => (false, w)
  | some n => w.rejectSession n reason

/-- The text has changed: the live session ends, and the change waits for the timer. -/
def noteChange (w : World) : World :=
  match w.controller with
  | none => w
  | some c =>
    let text := w.buffer.text
    if c.config.disableCompletions || text = c.latest then w
    else
      let w := w.updateController fun c => { c with latest := text }
      let w := (w.rejectCurrent "edit").2
      let caret := w.buffer.caretPosition
      w.updateController fun c =>
        { c with pending := some ⟨text, caret⟩, timer := some c.config.debounceMs }

end GhostText.World
