import GhostText.Document.Position

/-!
# Edits of a document

An edit puts a text in place of a stretch. Edits of one document are given in its own coordinates,
so they are made from the last to the first; of edits of the same stretch the one given first is
made first.
-/

namespace GhostText

/-- A stretch between two offsets and the text that takes its place. -/
structure Splice where
  start : Nat
  stop : Nat
  text : Text
  deriving DecidableEq, Repr

/-- A range and the text that takes its place. -/
structure TextChange where
  range : Range
  text : Text
  deriving DecidableEq, Repr

namespace Splice

/-- Puts the text in place of the stretch. -/
def apply (s : Splice) (t : Text) : Text := t.take s.start ++ s.text ++ t.drop s.stop

/-- Splices made later in the text come first. -/
def notBefore (a b : Splice) : Bool := b.start < a.start || (b.start == a.start && b.stop ≤ a.stop)

/-- Makes splices given in the coordinates of one text. -/
def applyAll (t : Text) (splices : List Splice) : Text :=
  (splices.mergeSort notBefore).foldl (fun t s => s.apply t) t

end Splice

namespace TextChange

def toJson (c : TextChange) : Json :=
  .obj [("range", c.range.toJson), ("text", .str (String.ofList c.text))]

/-- The stretch of a text that a change is about. -/
def splice (eol t : Text) (c : TextChange) : Splice :=
  let o := Text.ascending (Text.offsetAt eol t c.range.start) (Text.offsetAt eol t c.range.stop)
  ⟨o.1, o.2, c.text⟩

/-- Makes changes given in the coordinates of one text. -/
def applyAll (eol t : Text) (changes : List TextChange) : Text :=
  Splice.applyAll t (changes.map (splice eol t))

end TextChange

end GhostText
