import GhostText.Editor.Buffer
import GhostText.Suggestion.Completion

/-!
# What is shown of a suggestion

A suggestion is shown as ghost text inside the text or as the text of a panel. It can be found as
long as nobody has written over it, and then it can be removed again.
-/

namespace GhostText

inductive Artifact where
  /-- Text at an offset; it cannot be found once it was removed. -/
  | ghost (offset : Nat) (text : Text) (removed : Bool)
  | panel (range : Range) (text : String)
  deriving DecidableEq, Repr

/-- A text buffer with a panel beside it. -/
structure Canvas where
  buffer : Buffer
  panel : String
  deriving DecidableEq, Repr

namespace Artifact

/-- The stretch where ghost text still stands. -/
def stretch? (offset : Nat) (text : Text) (removed : Bool) (b : Buffer) : Option (Nat × Nat) :=
  let stop := offset + text.length
  if removed || Text.slice b.text offset stop != text then none else some (offset, stop)

/-- The range where a suggestion is shown. -/
def find? (a : Artifact) (c : Canvas) : Option Range :=
  match a with
  | .ghost offset text removed =>
    (stretch? offset text removed c.buffer).map fun s =>
      ⟨Text.positionAt c.buffer.eol.text c.buffer.text s.1,
        Text.positionAt c.buffer.eol.text c.buffer.text s.2⟩
  | .panel range text => if c.panel = text then some range else none

/-- Takes a suggestion away if it can be found. -/
def remove (a : Artifact) (c : Canvas) : Artifact × Canvas :=
  match a with
  | .ghost offset text removed =>
    (.ghost offset text true,
      match stretch? offset text removed c.buffer with
      | none => c
      | some s => { c with buffer := c.buffer.spliceAside s.1 s.2 [] })
  | .panel _ text => (a, if c.panel = text then { c with panel := "" } else c)

end Artifact

/-- Shows a completion inside the text or in the panel. -/
def Canvas.display (completion : Completion) (inline : Bool) (c : Canvas) : Artifact × Canvas :=
  let text := completion.shownText
  if inline then
    let ghost := text.toList
    let offset := Text.offsetAt c.buffer.eol.text c.buffer.text completion.position
    (.ghost offset ghost false, { c with buffer := c.buffer.spliceAside offset offset ghost })
  else (.panel completion.range text, { c with panel := text })

end GhostText
