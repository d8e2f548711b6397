import GhostText.Text.Units

/-!
# Line breaks in a text

A text is read from the left as line breaks and other characters, and what counts lines or columns
has one equation for each of the two. `breakInduction` is the induction over that reading. No bound
on the text is assumed, and the characters of a break may stand alone.
-/

namespace GhostText

@[simp] theorem LineBreak.text_lf : LineBreak.lf.text = ['\n'] := rfl
@[simp] theorem LineBreak.text_crlf : LineBreak.crlf.text = ['\r', '\n'] := rfl

theorem LineBreak.length_text_pos (b : LineBreak) : 0 < b.text.length := by
  cases b <;> decide

theorem LineBreak.text_ne_nil (b : LineBreak) : b.text ≠ [] := by
  cases b <;> decide

namespace Text

variable {b : LineBreak}

/-- Induction over a text as line breaks and single characters. -/
@[elab_as_elim]
theorem breakInduction (b : LineBreak) {P : Text → Prop} (nil : P [])
    (break_ : ∀ t, P t → P (b.text ++ t))
    (char : ∀ c t, ¬ b.text <+: c :: t → P t → P (c :: t)) (t : Text) : P t := by
  induction h : t.length using Nat.strongRecOn generalizing t with
  | ind n ih =>
    cases t with
    | nil => exact nil
    | cons c t =>
      by_cases hp : b.text <+: c :: t
      · obtain ⟨rest, hr⟩ := hp
        have hl := b.length_text_pos
        have he := congrArg List.length hr
        rw [List.length_append] at he
        rw [← hr]
        exact break_ rest (ih rest.length (by omega) rest rfl)
      · exact char c t hp (ih t.length (by simp at h; omega) t rfl)

theorem isPrefixOf_eq_false {sep t : Text} (h : ¬ sep <+: t) : sep.isPrefixOf t = false :=
  Bool.eq_false_iff.2 fun e => h (List.isPrefixOf_iff_prefix.1 e)

/-- Behind a line break its own characters are skipped. -/
theorem splitFrom_skip (sep a t : Text) : splitFrom sep a.length (a ++ t) = splitFrom sep 0 t := by
  induction a with
  | nil => rfl
  | cons c a ih => simpa [splitFrom] using ih

theorem pieces_eq_cons (sep t : Text) : ∃ l ls, pieces sep t = l :: ls := ⟨_, _, rfl⟩

@[simp] theorem pieces_nil (sep : Text) : pieces sep [] = [[]] := by simp [pieces, splitFrom]

/-- A break at the start ends an empty line. -/
theorem pieces_break (t : Text) : pieces b.text (b.text ++ t) = [] :: pieces b.text t := by
  obtain ⟨c, sep, hb⟩ := List.exists_cons_of_ne_nil b.text_ne_nil
  have hp : (c :: sep).isPrefixOf (c :: sep ++ t) = true :=
    List.isPrefixOf_iff_prefix.2 (List.prefix_append _ _)
  have hs := splitFrom_skip (c :: sep) sep t
  rw [hb, pieces, pieces]
  simp only [List.cons_append] at hp ⊢
  simp only [splitFrom, hp, if_true, List.length_cons, Nat.add_sub_cancel, hs]

/-- A character that starts no break belongs to the first line. -/
theorem pieces_char {c : Char} {t l : Text} {ls : List Text} (h : ¬ b.text <+: c :: t)
    (ht : pieces b.text t = l :: ls) : pieces b.text (c :: t) = (c :: l) :: ls := by
  have hp := isPrefixOf_eq_false h
  simp only [pieces, List.cons.injEq] at ht
  simp [pieces, splitFrom, hp, ht.1, ht.2]

/-- A text without the line break is one line. -/
theorem pieces_eq_singleton {t : Text} (h : ¬ b.text <:+: t) : pieces b.text t = [t] := by
  induction t with
  | nil => exact pieces_nil b.text
  | cons c t ih =>
    rw [List.infix_cons_iff, not_or] at h
    exact pieces_char h.1 (ih h.2)

/-! ## The lines of two texts in a row -/

/-- A text that does not start with the second half of a break makes none with what is before it. -/
theorem not_prefix_append {c : Char} {a t : Text} (h : ¬ LineBreak.crlf.text <+: c :: a)
    (ht : t.head? ≠ some '\n') : ¬ LineBreak.crlf.text <+: c :: (a ++ t) := by
  simp only [LineBreak.text_crlf, List.cons_prefix_cons, not_and] at h ⊢
  rintro rfl hp
  cases a with
  | nil =>
    obtain ⟨rest, rfl⟩ := hp
    exact ht rfl
  | cons d a =>
    obtain ⟨rfl, -⟩ := List.cons_prefix_cons.1 hp
    exact h rfl (List.prefix_append ['\n'] a)

/-- A break between two texts ends the lines of the first. -/
theorem pieces_append_break (a t : Text) :
    pieces LineBreak.crlf.text (a ++ (LineBreak.crlf.text ++ t)) =
      pieces LineBreak.crlf.text a ++ pieces LineBreak.crlf.text t := by
  induction a using breakInduction .crlf with
  | nil => rw [List.nil_append, pieces_break, pieces_nil, List.singleton_append]
  | break_ a ih => rw [List.append_assoc, pieces_break, pieces_break, ih, List.cons_append]
  | char c a h ih =>
    obtain ⟨l, ls, hl⟩ := pieces_eq_cons LineBreak.crlf.text a
    rw [hl, List.cons_append] at ih
    rw [pieces_char h hl, List.cons_append, pieces_char (not_prefix_append h (by simp)) ih,
      List.cons_append]

/-- Without a break between two texts the last line of the first goes on. -/
theorem pieces_append {t : Text} (hr : '\r' ∉ t) (hn : t.head? ≠ some '\n') (a : Text) :
    ∃ before last, pieces LineBreak.crlf.text a = before ++ [last] ∧
      pieces LineBreak.crlf.text (a ++ t) = before ++ [last ++ t] := by
  induction a using breakInduction .crlf with
  | nil =>
    refine ⟨[], [], pieces_nil _, pieces_eq_singleton fun hi => hr (hi.subset ?_)⟩
    exact List.mem_cons_self
  | break_ a ih =>
    obtain ⟨before, last, ha, ht⟩ := ih
    refine ⟨[] :: before, last, ?_, ?_⟩
    · rw [pieces_break, ha, List.cons_append]
    · rw [List.append_assoc, pieces_break, ht, List.cons_append]
  | char c a h ih =>
    obtain ⟨before, last, ha, ht⟩ := ih
    have hp := not_prefix_append h hn
    cases before with
    | nil => exact ⟨[], c :: last, pieces_char h ha, pieces_char hp ht⟩
    | cons l before => exact ⟨(c :: l) :: before, last, pieces_char h ha, pieces_char hp ht⟩

/-- There is one line break fewer than there are lines. -/
theorem occurrences_eq (t : Text) : occurrences b.text t = (pieces b.text t).length - 1 := by
  simp [occurrences, b.text_ne_nil]

@[simp] theorem occurrences_nil : occurrences b.text [] = 0 := by
  simp [occurrences_eq]

theorem occurrences_break (t : Text) :
    occurrences b.text (b.text ++ t) = occurrences b.text t + 1 := by
  obtain ⟨l, ls, ht⟩ := pieces_eq_cons b.text t
  simp [occurrences_eq, pieces_break, ht]

theorem occurrences_char {c : Char} {t : Text} (h : ¬ b.text <+: c :: t) :
    occurrences b.text (c :: t) = occurrences b.text t := by
  obtain ⟨l, ls, ht⟩ := pieces_eq_cons b.text t
  simp [occurrences_eq, pieces_char h ht, ht]

@[simp] theorem afterLast?_nil : afterLast? b.text [] = none := by
  simp [afterLast?, b.text_ne_nil]

theorem afterLast?_char {c : Char} {t : Text} (h : ¬ b.text <+: c :: t) :
    afterLast? b.text (c :: t) = afterLast? b.text t := by
  have hp := isPrefixOf_eq_false h
  rw [afterLast?]
  cases afterLast? b.text t <;> simp [hp]

/-- Behind the last line break comes the last line. -/
theorem afterLast?_break (t : Text) :
    afterLast? b.text (b.text ++ t) = some ((afterLast? b.text t).getD t) := by
  cases b with
  | lf => cases h : afterLast? ['\n'] t <;> simp [afterLast?, h]
  | crlf => cases h : afterLast? ['\r', '\n'] t <;> simp [afterLast?, h]

/-- What stands behind the last break is looked for only where there is a break. -/
theorem afterLast?_eq_none_iff (t : Text) :
    afterLast? b.text t = none ↔ occurrences b.text t = 0 := by
  induction t using breakInduction b with
  | nil => simp
  | break_ t _ => simp [afterLast?_break, occurrences_break]
  | char c t h ih => rw [afterLast?_char h, occurrences_char h, ih]

end Text

end GhostText
