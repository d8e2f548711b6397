import GhostText.Proofs.Document.Patch

/-!
# Changes at a caret

Many single edits may lead from one text to another. The caret tells them apart: the insertion that
ends there or the deletion that begins there, if there is one, is the change that is made, wherever
else the text might have been put in or taken out.
-/

namespace GhostText

/-- The caret is said to stand at an offset of a text, by that offset or by its position. -/
def CaretHint.PointsTo (b : LineBreak) (t : Text) (n : Nat) (hint : CaretHint) : Prop :=
  hint = .offset n ∨
    hint = .position (Text.positionAt b.text t n).line (Text.positionAt b.text t n).character

/-- The text of a splice stands where it was put. -/
theorem Splice.slice_apply {p : Splice} {t : Text} (h : p.start ≤ t.length) :
    Text.slice (p.apply t) p.start (p.start + p.text.length) = p.text := by
  have hl : (t.take p.start).length = p.start := List.length_take_of_le h
  rw [Text.slice, Splice.apply, List.take_left' (by rw [List.length_append, hl]),
    List.drop_left' hl]

namespace Diff

variable {b : LineBreak} {old new : Text}

/-- Both ways to say where the caret stands come to the same. -/
theorem changesAt_of_pointsTo {hint : CaretHint} {caret : Nat} (hn : caret ≤ new.length)
    (hb : Text.OnBoundary b new caret) (h : hint.PointsTo b new caret) :
    changesAt b.text old new (some hint.unchecked) =
      .ok (changes b.text old new (some (.offset caret))) := by
  unfold changesAt
  by_cases he : old = new
  · rw [if_pos he, changes, if_pos he]
  · rw [if_neg he]
    rcases h with rfl | rfl
    · rfl
    · simp only [CaretHint.unchecked, UncheckedPosition.offset_int, Int.toNat_natCast,
        Text.offsetAt_positionAt hn hb, bind, Except.bind, pure, Except.pure]

/-- What is found at the caret is the only change. -/
theorem changes_of_caretSpan {caret : Nat} {s : Span} (h : caretSpan? old new caret = some s) :
    changes LineBreak.lf.text old new (some (.offset caret)) =
      [Span.change LineBreak.lf.text old new s] := by
  have hne : old ≠ new := by
    rintro rfl
    simp [caretSpan?] at h
  have hcaret : ¬ (caret : Int) < 0 := by omega
  simp only [changes, if_neg hne, changedSpans, Option.bind_some, caretOffset?, if_neg hcaret,
    Int.toNat_natCast, h]
  rfl

/-- An insertion or a deletion that leaves the caret behind it is the change that is made. -/
theorem changesAt_apply {p : Splice} (hp : Single p) (hstop : p.stop ≤ old.length)
    {hint : CaretHint} (h : hint.PointsTo .lf (p.apply old) (p.start + p.text.length)) :
    changesAt LineBreak.lf.text old (p.apply old) (some hint.unchecked) =
      .ok [⟨⟨Text.positionAt LineBreak.lf.text old p.start,
        Text.positionAt LineBreak.lf.text old p.stop⟩, p.text⟩] := by
  have hstart := hp.le.trans hstop
  have hn : p.start + p.text.length ≤ (p.apply old).length := by
    rw [Splice.length_apply hstart]
    exact Nat.le_add_right _ _
  have hspan := caretSpan?_eq_some_iff.2 ⟨p, hp, hstop, rfl, rfl, rfl⟩
  rw [changesAt_of_pointsTo hn (by simp [Text.OnBoundary]) h, changes_of_caretSpan hspan]
  simp only [Span.change, Splice.slice_apply hstart]

/-- A text put in before the caret is put in there, and what stood behind the caret is taken out
there, also where the text repeats its surroundings and other edits as short come to the same. -/
theorem changesAt_caret (old : Text) :
    (∀ (c : Nat) (s : Text) (hint : CaretHint), c ≤ old.length → s ≠ [] →
      hint.PointsTo .lf (old.take c ++ s ++ old.drop c) (c + s.length) →
      changesAt LineBreak.lf.text old (old.take c ++ s ++ old.drop c) (some hint.unchecked) =
        .ok [⟨Range.empty (Text.positionAt LineBreak.lf.text old c), s⟩]) ∧
    ∀ (c k : Nat) (hint : CaretHint), 0 < k → c + k ≤ old.length →
      hint.PointsTo .lf (old.take c ++ old.drop (c + k)) c →
      changesAt LineBreak.lf.text old (old.take c ++ old.drop (c + k)) (some hint.unchecked) =
        .ok [⟨⟨Text.positionAt LineBreak.lf.text old c,
          Text.positionAt LineBreak.lf.text old (c + k)⟩, []⟩] := by
  constructor
  · intro c s hint hc hs h
    exact changesAt_apply (p := ⟨c, c, s⟩) (.inl ⟨rfl, hs⟩) hc h
  · intro c k hint hk hc h
    have hp : Single ⟨c, c + k, []⟩ := .inr ⟨Nat.lt_add_of_pos_right hk, rfl⟩
    have he : (⟨c, c + k, []⟩ : Splice).apply old = old.take c ++ old.drop (c + k) := by
      rw [Splice.apply, List.append_nil]
    rw [← he] at h ⊢
    exact changesAt_apply hp hc h

/-- One more letter in a row of the same, at the start by its offset and in the middle by its
position, and one letter less. -/
theorem changesAt_caret_row :
    changesAt LineBreak.lf.text "aa".toList "aaa".toList (some (.inr 1)) =
        .ok [⟨⟨⟨0, 0⟩, ⟨0, 0⟩⟩, ['a']⟩] ∧
      changesAt LineBreak.lf.text "aa".toList "aaa".toList (some (.inl ⟨.int 0, .int 2⟩)) =
        .ok [⟨⟨⟨0, 1⟩, ⟨0, 1⟩⟩, ['a']⟩] ∧
      changesAt LineBreak.lf.text "xxyy".toList "xyy".toList (some (.inr 0)) =
        .ok [⟨⟨⟨0, 0⟩, ⟨0, 1⟩⟩, []⟩] :=
  ⟨(changesAt_caret "aa".toList).1 0 ['a'] (.offset 1) (by decide) (by decide) (.inl rfl),
    (changesAt_caret "aa".toList).1 1 ['a'] (.position 0 2) (by decide) (by decide) (.inr rfl),
    (changesAt_caret "xxyy".toList).2 0 1 (.offset 0) (by decide) (by decide) (.inl rfl)⟩

end Diff

end GhostText
