import GhostText.Json.Convert
import GhostText.Text.Units

/-!
# Positions in a document

A position is a line and a column of UTF-16 code units, both counted from zero. Offsets count the
characters of the text. A position outside the text stands for the nearest place before it, and so
does one inside a character of two units.
-/

namespace GhostText

structure Position where
  line : Nat
  character : Nat
  deriving DecidableEq, Repr

namespace Position

/-- The order of reading: by line, then by column. -/
def before (p q : Position) : Prop :=
  p.line < q.line ∨ (p.line = q.line ∧ p.character < q.character)

instance (p q : Position) : Decidable (before p q) := inferInstanceAs (Decidable (_ ∨ _))

instance : LT Position := ⟨before⟩
instance : LE Position := ⟨fun p q => p < q ∨ p = q⟩
instance (p q : Position) : Decidable (p < q) := inferInstanceAs (Decidable (before p q))
instance (p q : Position) : Decidable (p ≤ q) := inferInstanceAs (Decidable (_ ∨ _))

def toJson (p : Position) : Json := .obj [("line", .int p.line), ("character", .int p.character)]

/-- Reads one coordinate; what is missing or negative is zero. -/
def coordinate (key : String) (v : Json) : Except Fault Nat :=
  (v.fieldD key).integerOrZero.map Int.toNat

/-- Reads a position; anything but an object is the start of the text. -/
def ofJson (v : Json) : Except Fault Position := do
  let line ← coordinate "line" v
  let character ← coordinate "character" v
  return ⟨line, character⟩

end Position

/-- A stretch of text between two positions. -/
structure Range where
  start : Position
  stop : Position
  deriving DecidableEq, Repr

namespace Range

def isEmpty (r : Range) : Bool := r.start = r.stop

def empty (p : Position) : Range := ⟨p, p⟩

/-- The range between two positions in whichever order. -/
def ordered (p q : Position) : Range := if q < p then ⟨q, p⟩ else ⟨p, q⟩

def toJson (r : Range) : Json := .obj [("start", r.start.toJson), ("end", r.stop.toJson)]

def ofJson (v : Json) : Except Fault Range := do
  let start ← Position.ofJson (v.fieldD "start")
  let stop ← Position.ofJson (v.fieldD "end")
  return ordered start stop

end Range

namespace Text

/-- Where a line starts: behind the lines above it and their breaks. -/
def lineStart (eol : Text) : (lines : List Text) → (line : Nat) → Nat
  | l :: ls, line + 1 => l.length + eol.length + lineStart eol ls line
  | _, _ => 0

/-- The offset of a position. -/
def offsetAt (eol t : Text) (p : Position) : Nat :=
  let lines := pieces eol t
  match lines[p.line]? with
  | none => t.length
  | some l => lineStart eol lines p.line + indexOfUnits l p.character

/-- The position reached by reading a text. -/
def endPosition (eol t : Text) : Position :=
  ⟨occurrences eol t, units ((afterLast? eol t).getD t)⟩

/-- The position of an offset. -/
def positionAt (eol t : Text) (offset : Nat) : Position := endPosition eol (t.take offset)

/-- The position reached by inserting a text at a position. -/
def positionAfter (eol : Text) (start : Position) (inserted : Text) : Position :=
  match pieces eol inserted with
  | [] => start
  | [l] => ⟨start.line, start.character + units l⟩
  | l :: rest => ⟨start.line + rest.length, units (rest.getLast?.getD l)⟩

/-- The text between two offsets. -/
def slice (t : Text) (start stop : Nat) : Text := (t.take stop).drop start

/-- Two offsets, the lesser first. -/
def ascending (m n : Nat) : Nat × Nat := if n < m then (n, m) else (m, n)

/-- The text in a range. -/
def inRange (eol t : Text) (r : Range) : Text :=
  let o := ascending (offsetAt eol t r.start) (offsetAt eol t r.stop)
  slice t o.1 o.2

end Text

end GhostText
