import GhostText.Document.Diff
import GhostText.Proofs.Document.Alignment
import GhostText.Proofs.Document.Splices

/-!
# Changed stretches

`Follows` says that some stretches lead from one text to another: between them the two texts hold
the same characters. It is shown of the stretches of an alignment, of one at a caret, and of what is
left of them when they are widened to whole line breaks and joined. `weave_splices` is what it is
for.
-/

namespace GhostText

/-- A stretch of the old text with the characters of the new one in its place. -/
def Span.splice (new : Text) (s : Span) : Splice :=
  ⟨s.oldStart, s.oldStop, Text.slice new s.newStart s.newStop⟩

/-- Something is taken out or put in. -/
def Span.Effective (s : Span) : Prop := s.oldStart < s.oldStop ∨ s.newStart < s.newStop

namespace Diff

variable {old new : Text}

structure Same (old new : Text) (o n o' n' : Nat) : Prop where
  le : o ≤ o'
  length : o' + n = n' + o
  chars : ∀ k, o + k < o' → old[o + k]? = new[n + k]?

theorem Same.refl (old new : Text) (o n : Nat) : Same old new o n o n :=
  ⟨Nat.le_refl o, Nat.add_comm o n, by intro k hk; omega⟩

theorem Same.trans {o n o' n' o'' n'' : Nat} (h : Same old new o n o' n')
    (h' : Same old new o' n' o'' n'') : Same old new o n o'' n'' := by
  have h₁ := h.le
  have h₂ := h'.le
  have h₃ := h.length
  have h₄ := h'.length
  refine ⟨by omega, by omega, ?_⟩
  intro k hk
  by_cases hlt : o + k < o'
  · exact h.chars k hlt
  · have he : o + k = o' + (o + k - o') := by omega
    have hn : n + k = n' + (o + k - o') := by omega
    rw [he, hn]
    exact h'.chars _ (by omega)

/-- A common stretch is common without some characters at its ends. -/
theorem Same.inner {o n o' n' p q : Nat} (h : Same old new o n o' n') (hpq : o + p + q ≤ o') :
    Same old new (o + p) (n + p) (o' - q) (n' - q) := by
  have hl := h.length
  refine ⟨by omega, by omega, ?_⟩
  intro k hk
  rw [Nat.add_assoc, Nat.add_assoc]
  exact h.chars (p + k) (by omega)

/-- What stands between two starts and two ends is kept. -/
theorem Same.of_append (a a' t c c' : Text) : Same (a ++ t ++ c) (a' ++ t ++ c') a.length a'.length
    (a.length + t.length) (a'.length + t.length) := by
  refine ⟨by omega, by omega, ?_⟩
  intro k hk
  have hk' : k < t.length := by omega
  rw [List.append_assoc, List.append_assoc, List.getElem?_append_right (Nat.le_add_right _ _),
    List.getElem?_append_right (Nat.le_add_right _ _), Nat.add_sub_cancel_left,
    Nat.add_sub_cancel_left, List.getElem?_append_left hk', List.getElem?_append_left hk']

theorem Same.slice {o n o' n' : Nat} (h : Same old new o n o' n') :
    Text.slice old o o' = Text.slice new n n' := by
  have hl := h.length
  have hle := h.le
  apply List.ext_getElem?
  intro k
  simp only [Text.slice, List.getElem?_drop]
  by_cases hk : o + k < o'
  · rw [List.getElem?_take_of_lt hk, List.getElem?_take_of_lt (by omega), h.chars k hk]
  · rw [List.getElem?_take_eq_none (by omega), List.getElem?_take_eq_none (by omega)]

/-- Stretches that lead from what stands behind an offset of the old text to what stands behind one
of the new text. -/
def Follows (old new : Text) : (o n : Nat) → List Span → Prop
  | o, n, [] => Same old new o n old.length new.length
  | o, n, s :: rest => Same old new o n s.oldStart s.newStart ∧ s.oldStart ≤ s.oldStop ∧
      s.newStart ≤ s.newStop ∧ Follows old new s.oldStop s.newStop rest

def Apart (s r : Span) : Prop := s.oldStop < r.oldStart

/-- More that is kept before the stretches may be counted to what lies between them. -/
theorem Follows.back {o n o' n' : Nat} {ss : List Span} (h : Same old new o n o' n')
    (hs : Follows old new o' n' ss) : Follows old new o n ss := by
  cases ss with
  | nil => exact h.trans hs
  | cons s rest => exact ⟨h.trans hs.1, hs.2⟩

/-- Stretches begin inside the texts they lead from and to. -/
theorem Follows.le {o n : Nat} {ss : List Span} (h : Follows old new o n ss) :
    o ≤ old.length ∧ n ≤ new.length := by
  induction ss generalizing o n with
  | nil =>
    have hs : Same old new o n old.length new.length := h
    have := hs.le
    have := hs.length
    omega
  | cons s rest ih =>
    obtain ⟨h₁, h₂, h₃, h₄⟩ := h
    have := h₁.le
    have := h₁.length
    have := ih h₄
    omega

theorem Follows.start_le {o n : Nat} {ss : List Span} (h : Follows old new o n ss) :
    ∀ s ∈ ss, o ≤ s.oldStart ∧ s.oldStart ≤ s.oldStop ∧ s.oldStop ≤ old.length := by
  induction ss generalizing o n with
  | nil => simp
  | cons s rest ih =>
    obtain ⟨h₁, h₂, h₃, h₄⟩ := h
    have hle := h₁.le
    have hend := h₄.le
    intro r hr
    rcases List.mem_cons.1 hr with rfl | hr
    · exact ⟨hle, h₂, hend.1⟩
    · have := ih h₄ r hr
      omega

theorem Follows.new_le {o n : Nat} {ss : List Span} (h : Follows old new o n ss) :
    ∀ s ∈ ss, s.newStop ≤ new.length := by
  induction ss generalizing o n with
  | nil => simp
  | cons s rest ih =>
    obtain ⟨h₁, h₂, h₃, h₄⟩ := h
    intro r hr
    rcases List.mem_cons.1 hr with rfl | hr
    · exact h₄.le.2
    · exact ih h₄ r hr

/-- Stretches that lead from one text to another are ascending splices of the first. -/
theorem Follows.ascending {o n : Nat} {ss : List Span} (h : Follows old new o n ss) :
    Splice.Ascending old.length o (ss.map (Span.splice new)) := by
  induction ss generalizing o n with
  | nil => exact h.le.1
  | cons s rest ih =>
    obtain ⟨h₁, h₂, h₃, h₄⟩ := h
    exact ⟨h₁.le, h₂, ih h₄⟩

/-- Stretches with something kept between neighbours are apart altogether. -/
theorem Follows.pairwise {o n : Nat} {ss : List Span} (h : Follows old new o n ss)
    (ha : ss.IsChain Apart) : ss.Pairwise Apart := by
  induction ss generalizing o n with
  | nil => exact List.Pairwise.nil
  | cons s rest ih =>
    obtain ⟨h₁, h₂, h₃, h₄⟩ := h
    obtain ⟨hs, hrest⟩ := List.isChain_cons.1 ha
    refine List.Pairwise.cons ?_ (ih h₄ hrest)
    intro r hr
    cases rest with
    | nil => simp at hr
    | cons f rest =>
      have hf : s.oldStop < f.oldStart := hs f rfl
      rcases List.mem_cons.1 hr with rfl | hr
      · exact hf
      · have hle := h₄.2.2.2.start_le r hr
        have := h₄.2.1
        simp only [Apart]
        omega

theorem slice_append_drop {t : Text} {i j : Nat} (hij : i ≤ j) :
    Text.slice t i j ++ t.drop j = t.drop i := by
  have he : t.drop j = (t.drop i).drop (j - i) := by
    rw [List.drop_drop]
    congr 1
    omega
  rw [Text.slice, List.drop_take, he, List.take_append_drop]

/-- Weaving the new characters into the kept ones gives the new text. -/
theorem Follows.weave {o n : Nat} {ss : List Span} (h : Follows old new o n ss) :
    Splice.weave old o (ss.map (Span.splice new)) = new.drop n := by
  induction ss generalizing o n with
  | nil =>
    have hs : Same old new o n old.length new.length := h
    simpa [Text.slice, Splice.weave] using hs.slice
  | cons s rest ih =>
    obtain ⟨h₁, h₂, h₃, h₄⟩ := h
    have hn : n ≤ s.newStart := by
      have := h₁.le
      have := h₁.length
      omega
    simp only [List.map_cons, Splice.weave, Span.splice, ih h₄, h₁.slice, List.append_assoc]
    rw [slice_append_drop h₃, slice_append_drop hn]

end Diff

end GhostText
