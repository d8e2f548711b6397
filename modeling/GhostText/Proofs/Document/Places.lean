import GhostText.Proofs.Document.Callers
import GhostText.Proofs.Document.Positions

/-!
# Places in a document

The position of an offset lies inside the text, and no position is read as an offset beyond it. To
read on from a position is to read the text before it and then what follows, unless a line break is
put together at the seam.
-/

namespace GhostText

variable {b : LineBreak}

namespace Text

/-- No position is read as an offset beyond the text. -/
theorem offsetAt_le_length (t : Text) (p : Position) : offsetAt b.text t p ≤ t.length := by
  obtain ⟨line, n⟩ := p
  induction t using breakInduction b generalizing line n with
  | nil => simp
  | break_ t ih =>
    cases line with
    | zero => simp [offsetAt_break_zero]
    | succ line =>
      rw [offsetAt_break_succ, List.length_append]
      exact Nat.add_le_add_left (ih line n) _
  | char c t hc ih =>
    cases line with
    | zero =>
      rw [offsetAt_char_zero hc, List.length_cons]
      split
      · exact Nat.zero_le _
      · exact Nat.succ_le_succ (ih 0 _)
    | succ line =>
      rw [offsetAt_char_succ hc, List.length_cons]
      exact Nat.succ_le_succ (ih (line + 1) n)

/-! ## Reading on -/

theorem positionAfter_nil (p : Position) : positionAfter b.text p [] = p := by
  simp [positionAfter]

/-- To read on over a line break is to read on from the start of the next line. -/
theorem positionAfter_break (p : Position) (t : Text) :
    positionAfter b.text p (b.text ++ t) = positionAfter b.text ⟨p.line + 1, 0⟩ t := by
  obtain ⟨l, ls, ht⟩ := pieces_eq_cons b.text t
  cases ls with
  | nil => simp [positionAfter, pieces_break, ht]
  | cons l' ls =>
    simp only [positionAfter, pieces_break, ht, List.length_cons, List.getLast?_cons,
      Option.getD_some, Position.mk.injEq, and_true]
    omega

theorem positionAfter_char {c : Char} {t : Text} (h : ¬ b.text <+: c :: t) (p : Position) :
    positionAfter b.text p (c :: t) =
      positionAfter b.text ⟨p.line, p.character + charUnits c⟩ t := by
  obtain ⟨l, ls, ht⟩ := pieces_eq_cons b.text t
  cases ls with
  | nil => simp [positionAfter, pieces_char h ht, ht]; omega
  | cons l' ls => simp [positionAfter, pieces_char h ht, ht, List.getLast?_cons]

/-- Where a text ends that is read from a position on. -/
theorem positionAfter_eq (p : Position) (t : Text) : positionAfter b.text p t =
    if (endPosition b.text t).line = 0 then
      ⟨p.line, p.character + (endPosition b.text t).character⟩
    else ⟨p.line + (endPosition b.text t).line, (endPosition b.text t).character⟩ := by
  induction t using breakInduction b generalizing p with
  | nil => simp [positionAfter_nil]
  | break_ t ih =>
    rw [positionAfter_break, ih, endPosition_break]
    split <;> simp_all; omega
  | char c t hc ih =>
    rw [positionAfter_char hc, ih, endPosition_char hc]
    split <;> simp_all; omega

/-- A line break in two texts read together that is not in the first lies behind it. -/
theorem not_break_append {c : Char} {t u : Text} (h : ¬ b.text <+: c :: t)
    (hseam : OnBoundary b (c :: t ++ u) (c :: t).length) : ¬ b.text <+: c :: (t ++ u) := by
  rintro ⟨rest, hr⟩
  cases b with
  | lf =>
    have hc : '\n' = c := by simpa using congrArg List.head? hr
    exact h ⟨t, by simp [← hc]⟩
  | crlf =>
    have hs := hseam rfl
    obtain ⟨hc, hr⟩ : '\r' = c ∧ '\n' :: rest = t ++ u := by simpa using hr
    cases t with
    | nil =>
      obtain rfl : u = '\n' :: rest := hr.symm
      simp [Diff.splitsBreak, ← hc] at hs
    | cons d t =>
      obtain ⟨hd, -⟩ : '\n' = d ∧ rest = t ++ u := by simpa using hr
      exact h ⟨t, by simp [← hc, ← hd]⟩

/-- Reading a text from the end of another one on is reading both, unless the other one ends inside
a line break of both. -/
theorem positionAfter_endPosition {t u : Text} (h : OnBoundary b (t ++ u) t.length) :
    positionAfter b.text (endPosition b.text t) u = endPosition b.text (t ++ u) := by
  rw [positionAfter_eq]
  induction t using breakInduction b with
  | nil =>
    rw [endPosition_nil, List.nil_append]
    generalize endPosition b.text u = p
    obtain ⟨line, n⟩ := p
    cases line <;> simp
  | break_ t ih =>
    have hu : OnBoundary b (t ++ u) t.length := by
      rw [List.append_assoc] at h
      have hpos := b.length_text_pos
      obtain ⟨j, hj, hb⟩ := h.of_break (by rw [List.length_append]; omega)
      rw [List.length_append] at hj
      exact Nat.add_left_cancel hj ▸ hb
    rw [List.append_assoc, endPosition_break, endPosition_break, ← ih hu]
    split <;> simp_all; omega
  | char c t hc ih =>
    have hu : OnBoundary b (t ++ u) t.length := OnBoundary.of_cons h
    rw [List.cons_append, endPosition_char hc, endPosition_char (not_break_append hc h), ← ih hu]
    split <;> split <;> simp_all; omega

/-! ## Places inside a text -/

/-- Whether a position lies on a line of the text and not beyond the end of that line. -/
def hasPlace (eol t : Text) (p : Position) : Bool :=
  (pieces eol t)[p.line]?.any fun l => p.character ≤ units l

/-- The position of a boundary lies inside the text. -/
theorem hasPlace_positionAt {t : Text} {i : Nat} (hi : i ≤ t.length) (h : OnBoundary b t i) :
    hasPlace b.text t (positionAt b.text t i) = true := by
  refine boundaryInduction (motive := fun t i => hasPlace b.text t (positionAt b.text t i) = true)
    (fun t => ?start) (fun t j ih => ?break_) (fun c t j hc ih => ?char) hi h
  case start =>
    obtain ⟨l, ls, ht⟩ := pieces_eq_cons b.text t
    simp [hasPlace, ht]
  case break_ => simpa [hasPlace, pieces_break, positionAt_behind_break] using ih
  case char =>
    obtain ⟨l, ls, ht⟩ := pieces_eq_cons b.text t
    rw [positionAt_behind_char hc]
    generalize positionAt b.text t j = p at ih ⊢
    obtain ⟨line, n⟩ := p
    cases line with
    | zero => simpa [hasPlace, pieces_char hc ht, ht] using ih
    | succ line => simpa [hasPlace, pieces_char hc ht, ht] using ih

theorem compare_greater_int (m n : Int) :
    Json.compare .greater (.int m) (.int n) = .ok (decide (n < m)) :=
  congrArg Except.ok (decide_eq_decide.2 Rat.intCast_lt_intCast)

theorem compare_greaterEqual_int (m n : Int) :
    Json.compare .greaterEqual (.int m) (.int n) = .ok (decide (n ≤ m)) := by
  have hle : (n < m ∨ m = n) ↔ n ≤ m := by omega
  have heq : ((m : Rat) == (n : Rat)) = decide (m = n) :=
    decide_eq_decide.2 Rat.intCast_inj
  have hlt : decide ((n : Rat) < m) = decide (n < m) := decide_eq_decide.2 Rat.intCast_lt_intCast
  simp only [Json.compare, Json.size?, Json.Size.less, Json.Size.same, heq, hlt, ← hle,
    Bool.decide_or]

/-- A line is found by its number, if there are that many. -/
theorem lineNumbered_int (lines : List Text) (n : Nat) : lineNumbered lines (.int n) =
    match lines[n]? with
    | some l => .ok l
    | none => .error .noSuchLine := by
  have hn : ¬ ((n : Int) < 0) := by omega
  cases h : lines[n]? <;>
    simp only [lineNumbered, Json.toInteger_int, bind, Except.bind, if_neg hn, Int.toNat_natCast, h]

/-- A position is refused where it has no place. -/
theorem checkInside_unchecked (t : Text) (p : Position) :
    checkInside (pieces b.text t) p.unchecked =
      if hasPlace b.text t p then .ok ()
      else .error (.outsideBuffer p.unchecked.line.shown p.unchecked.character.shown) := by
  obtain ⟨line, n⟩ := p
  unfold checkInside hasPlace
  simp only [Position.unchecked, compare_greaterEqual_int, lineNumbered_int, bind, Except.bind]
  cases hl : (pieces b.text t)[line]? with
  | none =>
    have hle := List.getElem?_eq_none_iff.1 hl
    simp [hle]
  | some l =>
    obtain ⟨hlt, -⟩ := List.getElem?_eq_some_iff.1 hl
    have hle : ¬ ((pieces b.text t).length : Int) ≤ line := by omega
    simp only [hle, decide_false, Bool.false_eq_true, if_false, compare_greater_int,
      Option.any_some, decide_eq_true_eq]
    by_cases hn : n ≤ units l
    · simp [hn]
    · simp [hn]

/-- The offsets of a range are refused unless both its ends have a place. -/
theorem checkedOffsets_unchecked (t : Text) (r : Range) :
    checkedOffsets b.text t r.unchecked =
      if hasPlace b.text t r.start then
        if hasPlace b.text t r.stop then
          .ok (offsetAt b.text t r.start, offsetAt b.text t r.stop)
        else .error (.outsideBuffer r.stop.unchecked.line.shown r.stop.unchecked.character.shown)
      else .error (.outsideBuffer r.start.unchecked.line.shown r.start.unchecked.character.shown)
    := by
  simp only [checkedOffsets, Range.unchecked, checkInside_unchecked, Position.offset_unchecked]
  split
  · split <;> rfl
  · rfl

end Text

end GhostText
