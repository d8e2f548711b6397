import GhostText.Document.Unchecked
import GhostText.Settings.Config

/-!
# The edited text

A text with a caret and a history. Every splice notes the text and the caret from before it, newest
first, so that one undo takes back one splice.
-/

namespace GhostText

/-- A text and a caret to go back to. -/
structure Snapshot where
  text : Text
  caret : Nat
  deriving DecidableEq, Repr

structure Buffer where
  text : Text
  caret : Nat
  /-- What came before, newest first. -/
  history : List Snapshot
  eol : LineBreak
  deriving DecidableEq, Repr

namespace Buffer

/-- The caret starts at the end of the text. -/
def start (text : Text) (eol : LineBreak) : Buffer := ⟨text, text.length, [], eol⟩

def caretPosition (b : Buffer) : Position := Text.positionAt b.eol.text b.text b.caret

def noted (b : Buffer) : List Snapshot := ⟨b.text, b.caret⟩ :: b.history

/-- Puts a text in place of a stretch; the caret goes to the end of the new text. -/
def splice (start stop : Nat) (text : Text) (b : Buffer) : Buffer :=
  { b with
    text := (⟨start, stop, text⟩ : Splice).apply b.text
    caret := start + text.length
    history := b.noted }

/-- Puts a text in place of a stretch without moving the caret against the text around it. -/
def spliceAside (start stop : Nat) (text : Text) (b : Buffer) : Buffer :=
  { b with
    text := (⟨start, stop, text⟩ : Splice).apply b.text
    caret := if start < b.caret then max start (b.caret + text.length - (stop - start)) else b.caret
    history := b.noted }

/-- Goes back by one step of the history. -/
def undo? (b : Buffer) : Option Buffer :=
  match b.history with
  | [] => none
  | s :: rest => some { b with text := s.text, caret := min s.text.length s.caret, history := rest }

/-- The offsets of a range, which has to lie inside the text. -/
def offsets (r : UncheckedRange) (b : Buffer) : Except Fault (Nat × Nat) :=
  Text.checkedOffsets b.eol.text b.text r

def moveTo (p : UncheckedPosition) (b : Buffer) : Except Fault Buffer := do
  return { b with caret := ← p.offset b.eol.text b.text }

end Buffer

end GhostText
