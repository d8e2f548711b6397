import GhostText.Proofs.Document.Places

/-!
# Where inserted text ends

The position behind an insertion is computed from the position it starts at and the inserted text
alone. It is the position the new document gives to that offset, unless the insertion completes a
line break that the text before it has begun: the document has one line more then.
-/

namespace GhostText

variable {b : LineBreak}

/-- Adding whole numbers to a position of whole numbers rounds nothing. -/
theorem UncheckedPosition.after_unchecked (p : Position) (t : Text) :
    p.unchecked.after b.text t = .ok (Text.positionAfter b.text p t).unchecked := by
  have hb : b.text.isEmpty = false := by cases b <;> rfl
  unfold UncheckedPosition.after Text.positionAfter
  rw [hb]
  obtain ⟨l, ls, ht⟩ := Text.pieces_eq_cons b.text t
  cases ls with
  | nil => simp [ht, Position.unchecked, Json.addInteger, bind, Except.bind, pure, Except.pure]
  | cons l' ls =>
    have hline : (p.line + ((l' :: ls).length + 1) + -1 : Int) =
        (p.line + (l' :: ls).length : Nat) := by
      push_cast
      omega
    simp only [ht, Position.unchecked, Json.addInteger, bind, Except.bind, pure, Except.pure,
      Bool.false_eq_true, if_false, hline]

namespace Text

/-- An insertion completes a line break where the text before it ends in the first half of one and
it starts with the second half. -/
def CompletesBreak (b : LineBreak) (t s : Text) : Prop :=
  b = .crlf ∧ t.getLast? = some '\r' ∧ s.head? = some '\n'

instance (b : LineBreak) (t s : Text) : Decidable (CompletesBreak b t s) :=
  inferInstanceAs (Decidable (_ ∧ _))

/-- The seam of two texts is a boundary unless the second one completes a line break. -/
theorem onBoundary_append_iff (t s : Text) :
    OnBoundary b (t ++ s) t.length ↔ ¬ CompletesBreak b t s := by
  cases b with
  | lf => simp [OnBoundary, CompletesBreak]
  | crlf =>
    obtain rfl | ⟨t, c, rfl⟩ := List.eq_nil_or_concat t
    · simp [OnBoundary, CompletesBreak, Diff.splitsBreak]
    · have hnext : (t ++ c :: s)[t.length + 1]? = s.head? := by
        rw [List.getElem?_append_right (by omega), List.head?_eq_getElem?]
        simp
      simp [OnBoundary, CompletesBreak, Diff.splitsBreak, hnext]

/-- An insertion adds as many lines as it has line breaks. -/
theorem line_positionAfter (p : Position) (t : Text) :
    (positionAfter b.text p t).line = p.line + (endPosition b.text t).line := by
  rw [positionAfter_eq]
  split
  next h => rw [h, Nat.add_zero]
  next => rfl

/-- Two texts have the lines of both, unless the second one completes a line break. -/
theorem line_endPosition_append {t s : Text} (h : ¬ CompletesBreak b t s) :
    (endPosition b.text (t ++ s)).line =
      (endPosition b.text t).line + (endPosition b.text s).line := by
  rw [← positionAfter_endPosition ((onBoundary_append_iff t s).2 h), line_positionAfter]

/-- A line break put together at the seam is one of neither text. -/
theorem line_endPosition_completed {t s : Text} (h : CompletesBreak b t s) :
    (endPosition b.text (t ++ s)).line =
      (endPosition b.text t).line + (endPosition b.text s).line + 1 := by
  obtain ⟨rfl, ht, hs⟩ := h
  obtain ⟨t, rfl⟩ := List.getLast?_eq_some_iff.1 ht
  obtain ⟨s, rfl⟩ := List.head?_eq_some_iff.1 hs
  have hcut : ∀ u : Text, ¬ CompletesBreak .crlf t ('\r' :: u) := by simp [CompletesBreak]
  have hjoin : (t ++ ['\r']) ++ '\n' :: s = t ++ (LineBreak.crlf.text ++ s) := by simp
  have hseam : ¬ CompletesBreak .crlf t (LineBreak.crlf.text ++ s) := hcut ('\n' :: s)
  have hcr : (endPosition LineBreak.crlf.text ['\r']).line = 0 := by decide
  have hlf : (endPosition LineBreak.crlf.text ('\n' :: s)).line =
      (endPosition LineBreak.crlf.text s).line := by
    rw [endPosition_char (by simp)]
    split
    next hz => exact hz.symm
    next => rfl
  have hbreak : (endPosition LineBreak.crlf.text (LineBreak.crlf.text ++ s)).line =
      (endPosition LineBreak.crlf.text s).line + 1 := by
    rw [endPosition_break]
  rw [hjoin, line_endPosition_append hseam, line_endPosition_append (hcut []), hbreak,
    hcr, hlf]
  omega

/-- The new document reads the text before an insertion and then the insertion. -/
theorem positionAt_insert (t s : Text) (i : Nat) :
    positionAt b.text (t.take i ++ s ++ t.drop i) (i + s.length) =
      endPosition b.text (t.take i ++ s) := by
  unfold positionAt
  obtain hi | hi := Nat.le_total i t.length
  · have hl : i + s.length = (t.take i ++ s).length := by
      rw [List.length_append, List.length_take_of_le hi]
    rw [hl, List.take_left]
  · rw [List.take_of_length_le hi, List.drop_eq_nil_of_le hi, List.append_nil,
      List.take_of_length_le (by rw [List.length_append]; omega)]

/-- The position behind an insertion, computed from where it starts, is the one the new document
gives to the end of the insertion, unless the insertion completes a line break. Then the document
counts one line more. -/
theorem after_positionAt (b : LineBreak) (t s : Text) (i : Nat) :
    ∃ p : Position,
      (positionAt b.text t i).unchecked.after b.text s = .ok p.unchecked ∧
      (p = positionAt b.text (t.take i ++ s ++ t.drop i) (i + s.length) ↔
        ¬ CompletesBreak b (t.take i) s) := by
  refine ⟨_, UncheckedPosition.after_unchecked _ _, ?_⟩
  rw [positionAt_insert]
  constructor
  · intro hp hbreak
    have hline := congrArg Position.line hp
    rw [line_positionAfter, line_endPosition_completed hbreak, positionAt] at hline
    omega
  · intro hbreak
    exact positionAfter_endPosition ((onBoundary_append_iff _ _).2 hbreak)

end Text

end GhostText
