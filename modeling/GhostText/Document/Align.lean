import GhostText.Text.Lines

/-!
# Alignment of two texts

Two texts are cut into stretches they share and stretches in which they differ: the longest text
that both hold is kept, and what stands before it and after it is aligned in the same way. Of
several longest ones the first in the old text counts, then the first in the new one.
-/

namespace GhostText

/-- A part of an alignment. -/
inductive Segment where
  | keep (text : Text)
  | change (old new : Text)
  deriving DecidableEq, Repr

namespace Segment

def old : Segment → Text
  | .keep t => t
  | .change o _ => o

def new : Segment → Text
  | .keep t => t
  | .change _ n => n

end Segment

namespace Align

def commonStart : Text → Text → Text
  | c :: cs, d :: ds => if c = d then c :: commonStart cs ds else []
  | _, _ => []

/-- The lengths of the texts that end both at a character of the old text and at each character of
the new one, from the lengths for the character before; `diagonal` is the one before in both. -/
def nextRow (c : Char) : (diagonal : Nat) → Text → List Nat → List Nat
  | diagonal, d :: ds, above :: row =>
    (if d = c then diagonal + 1 else 0) :: nextRow c above ds row
  | _, _, _ => []

/-- A text held by both: its length and the offsets after its end. -/
structure Match where
  length : Nat
  oldEnd : Nat
  newEnd : Nat

/-- The first of the longest ones, in the order of the new text. -/
def bestInRow (oldEnd : Nat) : (newEnd : Nat) → Match → List Nat → Match
  | _, best, [] => best
  | newEnd, best, n :: row =>
    bestInRow oldEnd (newEnd + 1) (if best.length < n then ⟨n, oldEnd, newEnd⟩ else best) row

def longestFrom (new : Text) : (oldEnd : Nat) → List Nat → Match → Text → Match
  | _, _, best, [] => best
  | oldEnd, row, best, c :: cs =>
    let row := nextRow c 0 new row
    longestFrom new (oldEnd + 1) row (bestInRow oldEnd 1 best row) cs

/-- The longest text that both hold. -/
def longest (old new : Text) : Match :=
  longestFrom new 1 (new.map fun _ => 0) ⟨0, 0, 0⟩ old

def changeOf (old new : Text) : List Segment :=
  if old.isEmpty && new.isEmpty then [] else [.change old new]

/-- What two texts start with in common is the start of the first. -/
theorem commonStart_prefix_left (a b : Text) : commonStart a b <+: a := by
  induction a generalizing b with
  | nil => cases b <;> simp [commonStart]
  | cons c cs ih =>
    cases b with
    | nil => simp [commonStart]
    | cons d ds =>
      simp only [commonStart]
      split
      · exact List.cons_prefix_cons.2 ⟨rfl, ih ds⟩
      · exact List.nil_prefix

theorem take_shorter {old new : Text} {o n : Nat}
    (h : commonStart (old.drop o) (new.drop n) ≠ []) : (old.take o).length < old.length := by
  have hs := (commonStart_prefix_left (old.drop o) (new.drop n)).length_le
  have hp := List.length_pos_iff.2 h
  simp only [List.length_drop, List.length_take] at *
  omega

theorem drop_shorter {old new : Text} {o n : Nat}
    (h : commonStart (old.drop o) (new.drop n) ≠ []) :
    (old.drop (o + (commonStart (old.drop o) (new.drop n)).length)).length < old.length := by
  have hs := (commonStart_prefix_left (old.drop o) (new.drop n)).length_le
  have hp := List.length_pos_iff.2 h
  simp only [List.length_drop] at *
  omega

end Align

open Align in
/-- The alignment of two texts: stretches kept, none of them empty, with at most one change before,
between and after them. -/
def align (old new : Text) : List Segment :=
  let m := longest old new
  let o := m.oldEnd - m.length
  let n := m.newEnd - m.length
  let shared := commonStart (old.drop o) (new.drop n)
  if _h : shared = [] then changeOf old new
  else
    align (old.take o) (new.take n) ++
      .keep shared :: align (old.drop (o + shared.length)) (new.drop (n + shared.length))
termination_by old.length
decreasing_by
  · exact take_shorter ‹_›
  · exact drop_shorter ‹_›

end GhostText
