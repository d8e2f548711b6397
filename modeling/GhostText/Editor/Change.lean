import GhostText.Suggestion.Finish

/-!
# Changes in the editor

Before the text changes the sessions are told, so that they can take their suggestions away first;
when it has changed the controller is told. Moving the caret is told afterwards.
-/

namespace GhostText.World

variable (run : Runner)

/-- Tells the sessions that listen, in the order in which they were started. A session that stops
listening meanwhile is not told any more. -/
def tellSessions (listen : Nat → World → World) (w : World) : World :=
  w.editor.listeners.foldl
    (fun w n => if w.editor.listeners.contains n then listen n w else w) w

/-- A session is told that the text is about to change. -/
def hearChange (origin : String) (n : Nat) (w : World) : World :=
  let goesBack := origin = "undo" || origin = "redo"
  let w := if goesBack && (w.session? n).any Session.cancelsFetches then cancelFetches run w else w
  (w.rejectSession n "edit").2

def aboutToChange (origin : String) (w : World) : World :=
  if w.editor.blocked then w
  else tellSessions (hearChange run origin) (w.signal (.aboutToChange origin))

def contentChanged (w : World) : World :=
  if w.editor.blocked then w
  else
    let w := w.signal .contentChanged
    if w.controller.any Controller.listening then w.noteChange else w

/-- A session is told that the caret has moved. -/
def hearMove (n : Nat) (w : World) : World :=
  let w := if (w.session? n).any Session.cancelsFetches then cancelFetches run w else w
  (w.rejectSession n "cursor-move").2

def cursorMoved (w : World) : World :=
  if w.editor.blocked then w else tellSessions (hearMove run) (w.signal .cursorMoved)

/-- A session is told that the view of the source opens or closes. -/
def hearToggle (entering : Bool) (n : Nat) (w : World) : World :=
  let w := w.log .debug
    ("Rejecting completion before toggling source mode " ++ (if entering then "on" else "off"))
  (w.rejectSession n "mode-toggle").2

def toggleMode (entering : Bool) (w : World) : World :=
  if w.editor.blocked then w else tellSessions (hearToggle entering) w

/-! ## Edits -/

/-- Inserts a text at the caret. -/
def insertText (text : Text) (origin : String) (w : World) : World :=
  let w := aboutToChange run origin w
  (w.updateBuffer fun b => b.splice b.caret b.caret text).contentChanged

/-- Puts a text in place of a range, which has to lie inside the text as it is once the sessions
have been told. -/
def replaceRange (range : UncheckedRange) (text : Text) (origin : String) :
    Act World Unit := fun w =>
  let w := aboutToChange run origin w
  match w.buffer.offsets range with
  | .error f => (.error f, w)
  | .ok o => (.ok (), (w.updateBuffer fun b => b.splice o.1 o.2 text).contentChanged)

def moveCaret (p : UncheckedPosition) : Act World Unit := fun w =>
  match w.buffer.moveTo p with
  | .error f => (.error f, w)
  | .ok b => (.ok (), cursorMoved run (w.updateBuffer fun _ => b))

/-- Takes back the last splice, and says whether there was one. The sessions are told first, and
what they put back counts. -/
def undo : Act World Bool := fun w =>
  if w.buffer.history.isEmpty then (.ok false, w)
  else
    let w := aboutToChange run "undo" w
    match w.buffer.undo? with
    | none => (.error .emptyHistory, w)
    | some b => (.ok true, (w.updateBuffer fun _ => b).contentChanged)

end GhostText.World
