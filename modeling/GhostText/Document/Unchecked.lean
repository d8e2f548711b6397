import GhostText.Document.Diff

/-!
# Positions and edits as callers hand them over

A caller may hand over positions whose coordinates are any values. They are read only where they are
needed: an empty text or an empty line has one place, so there the coordinates stay unread.
-/

namespace GhostText

structure UncheckedPosition where
  line : Json
  character : Json

structure UncheckedRange where
  start : UncheckedPosition
  stop : UncheckedPosition

namespace Json

/-- The sum of a value with a whole number. -/
def addInteger (v : Json) (n : Int) : Except Fault Json :=
  match v with
  | .int m => .ok (.int (m + n))
  | .bool b => .ok (.int ((if b then 1 else 0) + n))
  | .float x => .ok (.float (x.addInt n))
  | v => .error (.notAddable v.kindName)

end Json

def Position.unchecked (p : Position) : UncheckedPosition := ⟨.int p.line, .int p.character⟩

def Range.unchecked (r : Range) : UncheckedRange := ⟨r.start.unchecked, r.stop.unchecked⟩

namespace UncheckedPosition

def toJson (p : UncheckedPosition) : Except Fault Json := do
  let line ← p.line.toInteger
  let character ← p.character.toInteger
  return .obj [("line", .int line), ("character", .int character)]

/-- The offset of a position; coordinates below zero are taken for zero. -/
def offset (eol t : Text) (p : UncheckedPosition) : Except Fault Nat :=
  if t.isEmpty then .ok 0
  else if eol.isEmpty then .error .emptySeparator
  else do
    let line ← p.line.toNatural
    let lines := Text.pieces eol t
    match lines[line]? with
    | none => return t.length
    | some l =>
      if l.isEmpty then return Text.lineStart eol lines line
      else
        let character ← p.character.toNatural
        return Text.lineStart eol lines line + Text.indexOfUnits l character

/-- The position reached by inserting a text at a position. All lines of the text are counted, and
the one it starts on is taken off again: with a coordinate that is no integer each step rounds. -/
def after (eol : Text) (start : UncheckedPosition) (inserted : Text) :
    Except Fault UncheckedPosition :=
  if eol.isEmpty then .error .emptySeparator
  else
    match Text.pieces eol inserted with
    | [] => .ok start
    | [l] => do return ⟨start.line, ← start.character.addInteger (Text.units l)⟩
    | l :: rest => do
      let below ← start.line.addInteger (rest.length + 1)
      return ⟨← below.addInteger (-1), .int (Text.units (rest.getLast?.getD l))⟩

/-- The order of reading, and equality. -/
def compare (op : Operator) (p q : UncheckedPosition) : Except Fault Bool :=
  Json.compareItems op [p.line, p.character] [q.line, q.character]

def same (p q : UncheckedPosition) : Bool := p.line.same q.line && p.character.same q.character

end UncheckedPosition

namespace UncheckedRange

/-- The offsets of the two ends, the lesser first. -/
def offsets (eol t : Text) (r : UncheckedRange) : Except Fault (Nat × Nat) := do
  let start ← r.start.offset eol t
  let stop ← r.stop.offset eol t
  return Text.ascending start stop

/-- The text in a range. -/
def textIn (eol t : Text) (r : UncheckedRange) : Except Fault Text := do
  let o ← r.offsets eol t
  return Text.slice t o.1 o.2

end UncheckedRange

namespace Text

/-- The line with a number, negative numbers counting from the last line back. -/
def lineNumbered (lines : List Text) : Json → Except Fault Text
  | .float _ => .error (.notAnIndex "float")
  | v => do
    let n ← v.toInteger
    let i := if n < 0 then n + lines.length else n
    if i < 0 then .error .noSuchLine
    else
      match lines[i.toNat]? with
      | some l => .ok l
      | none => .error .noSuchLine

/-- Refuses a position below the last line or beyond the end of its line. -/
def checkInside (lines : List Text) (p : UncheckedPosition) : Except Fault Unit := do
  let outside := Except.error (Fault.outsideBuffer p.line.shown p.character.shown)
  if ← Json.compare .greaterEqual p.line (.int lines.length) then outside
  else
    let l ← lineNumbered lines p.line
    if ← Json.compare .greater p.character (.int (units l)) then outside else .ok ()

/-- The offsets of a range that lies inside the text, in the order given. -/
def checkedOffsets (eol t : Text) (r : UncheckedRange) : Except Fault (Nat × Nat) := do
  let lines := pieces eol t
  checkInside lines r.start
  checkInside lines r.stop
  let start ← r.start.offset eol t
  let stop ← r.stop.offset eol t
  return (start, stop)

end Text

/-- An edit as handed over: with a range of its own, or as a value that may describe one. -/
inductive EditItem where
  | edit (range : UncheckedRange) (text : Json)
  | change (range : UncheckedRange) (text : Json)
  | value (v : Json)

namespace EditItem

/-- The range and the text of an edit; a value without a range describes none. -/
def reading : EditItem → Except Fault (Option (UncheckedRange × Text))
  | .edit range text => .ok (some (range, text.shown.toList))
  | .change range text => .ok (some (range, text.textOrEmpty.toList))
  | .value v =>
    match v.field? "range" with
    | some (.obj fields) => do
      let range ← Range.ofJson (.obj fields)
      let text := (v.field? "text").getD (v.fieldD "newText")
      return some (range.unchecked, text.textOrEmpty.toList)
    | _ => .ok none

/-- Makes the edits of one text. -/
def applyAll (eol t : Text) (items : List EditItem) : Except Fault Text := do
  let read ← items.mapM reading
  let splices ← (read.filterMap id).mapM fun e => do
    let o ← e.1.offsets eol t
    return (⟨o.1, o.2, e.2⟩ : Splice)
  return Splice.applyAll t splices

end EditItem

/-- The changes between two texts with a caret that may be an unchecked position. -/
def Diff.changesAt (eol old new : Text) (caret : Option (UncheckedPosition ⊕ Int)) :
    Except Fault (List TextChange) :=
  if old = new then .ok []
  else
    match caret with
    | none => .ok (changes eol old new none)
    | some (.inr n) => .ok (changes eol old new (some (.offset n)))
    | some (.inl p) => do
      let n ← p.offset eol new
      return changes eol old new (some (.offset n))

end GhostText
