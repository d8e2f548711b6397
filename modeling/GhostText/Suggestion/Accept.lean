import GhostText.Editor.Change

/-!
# Starting and accepting a session

Starting a session shows its completion and makes it listen to the editor. Accepting puts the
completion into the text: what the range holds already is kept if the caret stands at its end and
the completion begins with it, and only the rest is inserted.
-/

namespace GhostText.World

variable (run : Runner)

/-- Shows the completion of a session. -/
def startSession (n : Nat) (s : Session) (w : World) : World :=
  let history := w.buffer.history
  let shown := w.canvas.display s.completion s.inline
  let w := w.updateCanvas fun _ => shown.2
  let w := w.updateSession n fun s => { s with artifact := some shown.1, history := history }
  let w := w.notifyShown s.uuid
  w.updateEditor fun e => { e with listeners := e.listeners ++ [n] }

/-- Starts a session that was not started before. -/
def startOnce (n : Nat) : Act World Unit := fun w =>
  match w.session? n with
  | none => (.ok (), w)
  | some s =>
    if s.artifact.isSome || s.isFinished then (.error (.alreadyStarted s.uuid), w)
    else (.ok (), w.startSession n s)

/-- What is still to be inserted where the caret stands at the end of the completion's range. -/
def missingText? (c : Completion) (b : Buffer) : Option Text :=
  if b.caretPosition = c.range.stop then
    let existing := Text.inRange b.eol.text b.text c.range
    if existing.isPrefixOf c.text.toList then some (c.text.toList.drop existing.length) else none
  else none

/-- Puts a completion into the text. -/
def applyCompletion (c : Completion) : Act World Unit := fun w =>
  match missingText? c w.buffer with
  | some rest => (.ok (), insertText run rest "api" w)
  | none =>
    let eol := w.buffer.eol.text
    match replaceRange run c.range.unchecked c.text.toList "api" w with
    | (.error f, w) => (.error f, w)
    | (.ok (), w) =>
      moveCaret run (Text.positionAfter eol c.range.start c.text.toList).unchecked w

/-- Accepts a session, and says whether its completion was put into the text. -/
def acceptSession (n : Nat) (w : World) : Bool × World :=
  match w.session? n with
  | none => (false, w)
  | some s =>
    if !s.isOpen then (false, w)
    else
      match (w.beginClosing n).removeSuggestion n s with
      | (false, w) =>
        let w := w.log .warning
          ("Suggestion " ++ s.uuid ++ " can no longer be located; rejecting it")
        (false, w.finishRejected n s.uuid "apply-failure")
      | (true, w) =>
        match applyCompletion run s.completion w with
        | (.error f, w) =>
          let w := w.log .warning
            ("Could not apply completion " ++ s.uuid ++ ": " ++ f.message)
          (false, w.finishRejected n s.uuid "apply-failure")
        | (.ok (), w) => (true, w.finishAccepted n s.uuid)

def acceptCurrent (w : World) : Bool × World :=
  match w.controller.bind Controller.session with
  | none => (false, w)
  | some n => acceptSession run n w

/-! ## Keys -/

/-- A session takes its key while the editor has the focus and nobody else has taken it. -/
def hearKey (key : String) (n : Nat) (r : Bool × World) : Bool × World :=
  let (handled, w) := r
  match w.session? n with
  | none => (handled, w)
  | some s =>
    if handled || key != s.acceptKey || !w.editor.focused then (handled, w)
    else (true, (acceptSession run n w).2)

/-- Tells the sessions of a key, and says whether one of them has taken it. -/
def keyPressed (key : String) (w : World) : Bool × World :=
  if w.editor.blocked then (false, w)
  else
    w.editor.listeners.foldl
      (fun r n => if r.2.editor.listeners.contains n then hearKey run key n r else r) (false, w)

/-- A key nobody has taken is typed if it stands for a character. -/
def pressKey (key : String) (w : World) : Bool × World :=
  match keyPressed run key w with
  | (true, w) => (true, w)
  | (false, w) =>
    if key = "Tab" then (false, insertText run ['\t'] "input" w)
    else
      match key.toList with
      | [c] => (false, insertText run [c] "input" w)
      | _ => (false, w)

/-! ## The controller's session -/

/-- Puts a session for a completion in the place of the live one. -/
def present (completion : Completion) (w : World) : World :=
  let w := (w.rejectCurrent "newer-completion").2
  match w.controller with
  | none => w
  | some c =>
    let n := w.sessions.length
    let s := Session.propose completion c.config.inlineInSource c.config.acceptKey true true
    let w := { w with sessions := w.sessions ++ [s] }
    let w := w.updateController fun c => { c with session := some n }
    (w.startSession n s).signal (.sessionStarted completion.uuid)

/-- Takes a completion that was fetched, unless it is not wanted any more. -/
def takeCompletion (completion : Completion) (w : World) : World :=
  match w.controller with
  | none => w
  | some c =>
    if c.config.disableCompletions || c.pending.isSome then w.notifyRejected [completion.uuid]
    else w.present completion

end GhostText.World
