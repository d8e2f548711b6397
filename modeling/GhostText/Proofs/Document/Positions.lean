import GhostText.Document.Diff
import GhostText.Proofs.Text.Breaks

/-!
# Positions and offsets

The offset of a position and the position of an offset, each with one equation for a text that
starts with a line break and one for a text that starts with another character. An offset that no
line break spans is recovered from its position.
-/

namespace GhostText.Text

variable {b : LineBreak}

theorem charUnits_pos (c : Char) : 0 < charUnits c := by
  unfold charUnits
  split <;> decide

@[simp] theorem endPosition_nil : endPosition b.text [] = ⟨0, 0⟩ := by
  simp [endPosition]

theorem endPosition_break (t : Text) : endPosition b.text (b.text ++ t) =
    ⟨(endPosition b.text t).line + 1, (endPosition b.text t).character⟩ := by
  simp [endPosition, occurrences_break, afterLast?_break]

/-- A character widens the line it ends in, if that is the first one. -/
theorem endPosition_char {c : Char} {t : Text} (h : ¬ b.text <+: c :: t) :
    endPosition b.text (c :: t) =
      if (endPosition b.text t).line = 0 then ⟨0, charUnits c + (endPosition b.text t).character⟩
      else endPosition b.text t := by
  simp only [endPosition, occurrences_char h, afterLast?_char h]
  by_cases hz : occurrences b.text t = 0
  · simp [hz, (afterLast?_eq_none_iff t).2 hz]
  · have hn : afterLast? b.text t ≠ none := fun e => hz ((afterLast?_eq_none_iff t).1 e)
    obtain ⟨u, hu⟩ := Option.ne_none_iff_exists'.1 hn
    simp [hz, hu]

@[simp] theorem offsetAt_nil (p : Position) : offsetAt b.text [] p = 0 := by
  obtain ⟨line, character⟩ := p
  cases line <;> simp [offsetAt, lineStart]

theorem offsetAt_zero (t : Text) : offsetAt b.text t ⟨0, 0⟩ = 0 := by
  obtain ⟨l, ls, ht⟩ := pieces_eq_cons b.text t
  cases l <;> simp [offsetAt, ht, lineStart, indexOfUnits, charUnits_pos]

theorem offsetAt_break_zero (t : Text) (n : Nat) : offsetAt b.text (b.text ++ t) ⟨0, n⟩ = 0 := by
  simp [offsetAt, pieces_break, lineStart]

/-- A line behind the first one is looked for behind the first line break. -/
theorem offsetAt_break_succ (t : Text) (line n : Nat) :
    offsetAt b.text (b.text ++ t) ⟨line + 1, n⟩ =
      b.text.length + offsetAt b.text t ⟨line, n⟩ := by
  simp only [offsetAt, pieces_break, List.getElem?_cons_succ]
  cases h : (pieces b.text t)[line]? with
  | none => simp
  | some l => simp [lineStart]; omega

/-- A character of the first line takes as many columns as it has units; a column inside it stands
for its start. -/
theorem offsetAt_char_zero {c : Char} {t : Text} (h : ¬ b.text <+: c :: t) (n : Nat) :
    offsetAt b.text (c :: t) ⟨0, n⟩ =
      if n < charUnits c then 0 else offsetAt b.text t ⟨0, n - charUnits c⟩ + 1 := by
  obtain ⟨l, ls, ht⟩ := pieces_eq_cons b.text t
  simp only [offsetAt, pieces_char h ht, ht, List.getElem?_cons_zero, lineStart, indexOfUnits,
    Nat.zero_add]

theorem offsetAt_char_succ {c : Char} {t : Text} (h : ¬ b.text <+: c :: t) (line n : Nat) :
    offsetAt b.text (c :: t) ⟨line + 1, n⟩ = offsetAt b.text t ⟨line + 1, n⟩ + 1 := by
  obtain ⟨l, ls, ht⟩ := pieces_eq_cons b.text t
  simp only [offsetAt, pieces_char h ht, ht, List.getElem?_cons_succ]
  cases ls[line]? with
  | none => simp
  | some l' => simp [lineStart]; omega

/-- An offset that no line break of the document spans. -/
def OnBoundary (b : LineBreak) (t : Text) (i : Nat) : Prop :=
  b = .crlf → Diff.splitsBreak t i = false

/-- Behind the start of a text that starts with a break, a boundary lies behind that break. -/
theorem OnBoundary.of_break {t : Text} {i : Nat} (h : OnBoundary b (b.text ++ t) i) (hi : 0 < i) :
    ∃ j, i = b.text.length + j ∧ OnBoundary b t j := by
  cases b with
  | lf => exact ⟨i - 1, by simp; omega, by simp [OnBoundary]⟩
  | crlf =>
    have hs := h rfl
    match i with
    | 1 => simp [Diff.splitsBreak] at hs
    | j + 2 =>
      refine ⟨j, by simp; omega, fun _ => ?_⟩
      cases j with
      | zero => simp [Diff.splitsBreak]
      | succ j => simpa [Diff.splitsBreak] using hs

theorem OnBoundary.of_cons {c : Char} {t : Text} {i : Nat} (h : OnBoundary b (c :: t) (i + 1)) :
    OnBoundary b t i := by
  intro hb
  have hs := h hb
  cases i with
  | zero => simp [Diff.splitsBreak]
  | succ i => simpa [Diff.splitsBreak] using hs

theorem not_break_take {c : Char} {t : Text} (h : ¬ b.text <+: c :: t) (i : Nat) :
    ¬ b.text <+: c :: t.take i :=
  fun hp => h (hp.trans ((List.cons_prefix_cons).2 ⟨rfl, List.take_prefix i t⟩))

/-- Induction over the boundaries of a text. One is at its start, and behind what it starts with, a
line break or another character, there are those of the rest. -/
theorem boundaryInduction {motive : Text → Nat → Prop} (start : ∀ t, motive t 0)
    (break_ : ∀ t j, motive t j → motive (b.text ++ t) (b.text.length + j))
    (char : ∀ c t j, ¬ b.text <+: c :: t → motive t j → motive (c :: t) (j + 1))
    {t : Text} {i : Nat} (hi : i ≤ t.length) (h : OnBoundary b t i) : motive t i := by
  induction t using breakInduction b generalizing i with
  | nil =>
    obtain rfl : i = 0 := by simpa using hi
    exact start []
  | break_ t ih =>
    rcases Nat.eq_zero_or_pos i with rfl | hpos
    · exact start _
    · obtain ⟨j, rfl, hj⟩ := h.of_break hpos
      exact break_ t j (ih (by simpa using hi) hj)
  | char c t hc ih =>
    cases i with
    | zero => exact start _
    | succ j => exact char c t j hc (ih (by simpa using hi) h.of_cons)

/-! ## Positions of offsets -/

@[simp] theorem positionAt_zero (t : Text) : positionAt b.text t 0 = ⟨0, 0⟩ := endPosition_nil

/-- Behind a line break positions count on from the next line. -/
theorem positionAt_behind_break (t : Text) (i : Nat) :
    positionAt b.text (b.text ++ t) (b.text.length + i) =
      ⟨(positionAt b.text t i).line + 1, (positionAt b.text t i).character⟩ := by
  have he : (b.text ++ t).take (b.text.length + i) = b.text ++ t.take i :=
    List.take_length_add_append i
  rw [positionAt, he, endPosition_break, positionAt]

/-- Behind a character only the positions on its own line are moved. -/
theorem positionAt_behind_char {c : Char} {t : Text} (hc : ¬ b.text <+: c :: t) (i : Nat) :
    positionAt b.text (c :: t) (i + 1) =
      if (positionAt b.text t i).line = 0 then
        ⟨0, charUnits c + (positionAt b.text t i).character⟩
      else positionAt b.text t i := by
  rw [positionAt, List.take_succ_cons, endPosition_char (not_break_take hc i), positionAt]

/-- A boundary is recovered from its position. -/
theorem offsetAt_positionAt {t : Text} {i : Nat} (hi : i ≤ t.length) (h : OnBoundary b t i) :
    offsetAt b.text t (positionAt b.text t i) = i := by
  refine boundaryInduction (motive := fun t i => offsetAt b.text t (positionAt b.text t i) = i)
    (fun t => ?start) (fun t j ih => ?break_) (fun c t j hc ih => ?char) hi h
  case start => rw [positionAt_zero, offsetAt_zero]
  case break_ => rw [positionAt_behind_break, offsetAt_break_succ, ih]
  case char =>
    rw [positionAt_behind_char hc]
    generalize positionAt b.text t j = p at ih ⊢
    obtain ⟨line, n⟩ := p
    cases line with
    | zero =>
      have hn : ¬ charUnits c + n < charUnits c := by omega
      simp only [if_true, offsetAt_char_zero hc, if_neg hn, Nat.add_sub_cancel_left, ih]
    | succ line => simp only [Nat.succ_ne_zero, if_false, offsetAt_char_succ hc, ih]

/-- A position depends only on the text before it. -/
theorem positionAt_congr {t u : Text} {i : Nat} (h : t.take i = u.take i) :
    positionAt b.text t i = positionAt b.text u i := by
  rw [positionAt, positionAt, h]

/-- Whether an offset is a boundary depends only on the text up to the character behind it. -/
theorem OnBoundary.congr {t u : Text} {i : Nat} (h : t.take (i + 1) = u.take (i + 1))
    (ht : OnBoundary b t i) : OnBoundary b u i := by
  intro hb
  have hs := ht hb
  have hk : ∀ k, k < i + 1 → t[k]? = u[k]? := by
    intro k hk
    rw [← List.getElem?_take_of_lt hk, h, List.getElem?_take_of_lt hk]
  simpa only [Diff.splitsBreak, hk i (by omega), hk (i - 1) (by omega)] using hs

end GhostText.Text
