import GhostText.Document.Align
import GhostText.Document.Edit

/-!
# Changes between two texts

The changes that lead from one text to another, in the coordinates of the old text, ascending and
apart from each other. Where a caret is known and the texts differ by one insertion that ends there
or one deletion that starts there, that is the change. Where lines end with two characters no change
begins or ends between them.
-/

namespace GhostText

/-- A stretch of the old text and the stretch of the new text in its place, by offsets. -/
structure Span where
  oldStart : Nat
  oldStop : Nat
  newStart : Nat
  newStop : Nat
  deriving DecidableEq, Repr

/-- Where the caret stands in the new text. -/
inductive Caret where
  | offset (n : Int)
  | position (p : Position)
  deriving DecidableEq, Repr

namespace Diff

/-- The one insertion that ends at the caret, or the one deletion that starts there. -/
def caretSpan? (old new : Text) (caret : Nat) : Option Span :=
  if new.length < caret then none
  else if old.length < new.length then
    let delta := new.length - old.length
    let start := caret - delta
    if delta ≤ caret ∧ new.take start = old.take start ∧ new.drop caret = old.drop start then
      some ⟨start, start, start, caret⟩
    else none
  else if new.length < old.length then
    let stop := caret + (old.length - new.length)
    if stop ≤ old.length ∧ old.take caret = new.take caret ∧ old.drop stop = new.drop caret then
      some ⟨caret, stop, caret, caret⟩
    else none
  else none

/-- The changed stretches of an alignment that starts at two offsets. -/
def spansFrom : (old new : Nat) → List Segment → List Span
  | _, _, [] => []
  | o, n, .keep t :: rest => spansFrom (o + t.length) (n + t.length) rest
  | o, n, .change a b :: rest =>
    ⟨o, o + a.length, n, n + b.length⟩ :: spansFrom (o + a.length) (n + b.length) rest

/-- The changed stretches. What the texts share at their start and at their end is kept as it is,
and only the middle is aligned. -/
def spans (old new : Text) : List Span :=
  let start := (Align.commonStart old new).length
  let oldRest := old.drop start
  let newRest := new.drop start
  let tail := (Align.commonStart oldRest.reverse newRest.reverse).length
  let oldMid := oldRest.take (oldRest.length - tail)
  let newMid := newRest.take (newRest.length - tail)
  if oldMid.isEmpty || newMid.isEmpty then
    [⟨start, start + oldMid.length, start, start + newMid.length⟩]
  else spansFrom start start (align oldMid newMid)

/-- An offset between a carriage return and its line feed. -/
def splitsBreak (t : Text) (offset : Nat) : Bool :=
  0 < offset && t[offset - 1]? == some '\r' && t[offset]? == some '\n'

/-- Widens a stretch that begins or ends inside a line break of either text. The characters next to
a stretch are the same in both texts, so one step on each side is enough. -/
def widen (old new : Text) (s : Span) : Span :=
  let back := if splitsBreak old s.oldStart || splitsBreak new s.newStart then 1 else 0
  let on := if splitsBreak old s.oldStop || splitsBreak new s.newStop then 1 else 0
  ⟨s.oldStart - back, s.oldStop + on, s.newStart - back, s.newStop + on⟩

/-- Joins a stretch to the last one if they touch or overlap in the old text. The list is kept with
the last stretch first. -/
def join (joined : List Span) (s : Span) : List Span :=
  match joined with
  | last :: rest =>
    if s.oldStart ≤ last.oldStop then
      ⟨last.oldStart, max last.oldStop s.oldStop, last.newStart, max last.newStop s.newStop⟩ :: rest
    else s :: last :: rest
  | [] => [s]

def joinAll (spans : List Span) : List Span := (spans.foldl join []).reverse

/-- A caret as an offset in the new text; a negative one is nowhere. -/
def caretOffset? (eol new : Text) : Caret → Option Nat
  | .offset n => if n < 0 then none else some n.toNat
  | .position p => some (Text.offsetAt eol new p)

/-- The stretches to be changed. -/
def changedSpans (eol old new : Text) (caret : Option Caret) : List Span :=
  let found := (caret.bind (caretOffset? eol new)).bind (caretSpan? old new)
  let spans := match found with
    | some s => [s]
    | none => spans old new
  if eol = LineBreak.crlf.text then joinAll (spans.map (widen old new)) else spans

def Span.change (eol old new : Text) (s : Span) : TextChange :=
  ⟨⟨Text.positionAt eol old s.oldStart, Text.positionAt eol old s.oldStop⟩,
    Text.slice new s.newStart s.newStop⟩

/-- The changes from one text to another. -/
def changes (eol old new : Text) (caret : Option Caret) : List TextChange :=
  if old = new then []
  else (changedSpans eol old new caret).map (Span.change eol old new)

/-- The changes for a reader that makes one after the other: the last in the text goes first, so
that none moves the stretch of another. -/
def inTurn (changes : List TextChange) : List Json := changes.reverse.map TextChange.toJson

end Diff

end GhostText
