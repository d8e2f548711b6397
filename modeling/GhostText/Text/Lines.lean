/-!
# Splitting a text at a separator

A text is cut at the occurrences of a separator, found from the left and not overlapping. For a line
break the pieces are the lines, without their breaks.
-/

namespace GhostText

/-- A text as its code points, none of them half of a surrogate pair; offsets into it count them. -/
abbrev Text := List Char

/-- The two line breaks a document may be kept with. -/
inductive LineBreak where
  | lf
  | crlf
  deriving DecidableEq, Repr

def LineBreak.text : LineBreak → Text
  | .lf => ['\n']
  | .crlf => ['\r', '\n']

namespace Text

/-- The piece being read and the pieces after it, once `skip` characters of a separator already
found are passed over. -/
def splitFrom (sep : Text) : (skip : Nat) → Text → Text × List Text
  | _, [] => ([], [])
  | skip + 1, _ :: cs => splitFrom sep skip cs
  | 0, c :: cs =>
    if sep.isPrefixOf (c :: cs) then
      let r := splitFrom sep (sep.length - 1) cs
      ([], r.1 :: r.2)
    else
      let r := splitFrom sep 0 cs
      (c :: r.1, r.2)

/-- The pieces of a text between the occurrences of a separator that is not empty. -/
def pieces (sep t : Text) : List Text :=
  let r := splitFrom sep 0 t
  r.1 :: r.2

/-- How often a separator occurs; the empty one stands before every character and at the end. -/
def occurrences (sep t : Text) : Nat :=
  if sep.isEmpty then t.length + 1 else (pieces sep t).length - 1

/-- What follows the last occurrence of a separator. -/
def afterLast? (sep : Text) : Text → Option Text
  | [] => if sep.isEmpty then some [] else none
  | c :: cs =>
    match afterLast? sep cs with
    | some t => some t
    | none => if sep.isPrefixOf (c :: cs) then some ((c :: cs).drop sep.length) else none

end Text

end GhostText
