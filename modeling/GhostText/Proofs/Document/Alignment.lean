import GhostText.Document.Align
import Mathlib.Data.List.Chain

/-!
# What an alignment holds

An alignment is a partition of both texts in order: its old sides make up the old text and its new
sides the new one. A kept stretch is not empty, and there is one between any two changes. A change
has something on one of its sides.
-/

namespace GhostText

namespace Segment

def isKeep : Segment → Bool
  | .keep _ => true
  | .change _ _ => false

/-- Of two neighbours at least one is kept. -/
def Parted (s r : Segment) : Prop := s.isKeep ∨ r.isKeep

/-- Kept stretches hold something. -/
def Solid (segments : List Segment) : Prop := ∀ t, Segment.keep t ∈ segments → t ≠ []

/-- Changes take something out or put something in. -/
def Differing (segments : List Segment) : Prop :=
  ∀ a b, Segment.change a b ∈ segments → a ≠ [] ∨ b ≠ []

end Segment

namespace Align

open Segment

theorem commonStart_comm (a b : Text) : commonStart a b = commonStart b a := by
  induction a generalizing b with
  | nil => cases b <;> rfl
  | cons c cs ih =>
    cases b with
    | nil => rfl
    | cons d ds =>
      by_cases h : c = d
      · simp [commonStart, h, ih]
      · simp [commonStart, h, Ne.symm h]

theorem commonStart_prefix_right (a b : Text) : commonStart a b <+: b := by
  rw [commonStart_comm]
  exact commonStart_prefix_left b a

/-- A stretch found at an offset stands between what is before it and what is behind it. -/
theorem take_append_drop_of_prefix {t shared : Text} {o : Nat} (h : shared <+: t.drop o) :
    t.take o ++ (shared ++ t.drop (o + shared.length)) = t := by
  obtain ⟨rest, hr⟩ := h
  have hd : t.drop (o + shared.length) = rest := by
    rw [← List.drop_drop, ← hr, List.drop_left]
  rw [hd, hr, List.take_append_drop]

/-- What is left of both texts makes up one change, whose old side is the old text. -/
theorem old_changeOf (old new : Text) : (changeOf old new).flatMap Segment.old = old := by
  unfold changeOf
  split
  · simp_all
  · simp [Segment.old]

theorem new_changeOf (old new : Text) : (changeOf old new).flatMap Segment.new = new := by
  unfold changeOf
  split
  · simp_all
  · simp [Segment.new]

end Align

open Align Segment

/-- The old sides of an alignment make up the old text. -/
theorem old_align (old new : Text) : (align old new).flatMap Segment.old = old := by
  fun_induction align old new with
  | case1 old new m o n shared h => exact old_changeOf old new
  | case2 old new m o n shared h ih ih' =>
    rw [List.flatMap_append, List.flatMap_cons, ih, ih']
    exact take_append_drop_of_prefix (commonStart_prefix_left _ _)

/-- The new sides of an alignment make up the new text. -/
theorem new_align (old new : Text) : (align old new).flatMap Segment.new = new := by
  fun_induction align old new with
  | case1 old new m o n shared h => exact new_changeOf old new
  | case2 old new m o n shared h ih ih' =>
    rw [List.flatMap_append, List.flatMap_cons, ih, ih']
    exact take_append_drop_of_prefix (commonStart_prefix_right _ _)

/-- No stretch that is kept is empty. -/
theorem solid_align (old new : Text) : Solid (align old new) := by
  fun_induction align old new with
  | case1 old new m o n shared h =>
    intro t ht
    unfold changeOf at ht
    split at ht <;> simp at ht
  | case2 old new m o n shared h ih ih' =>
    intro t ht
    rcases List.mem_append.1 ht with ht | ht
    · exact ih t ht
    · rcases List.mem_cons.1 ht with ht | ht
      · obtain rfl := Segment.keep.inj ht
        exact h
      · exact ih' t ht

/-- Every change has something on one of its sides. -/
theorem differing_align (old new : Text) : Differing (align old new) := by
  fun_induction align old new with
  | case1 old new m o n shared h =>
    intro a b hab
    unfold changeOf at hab
    split at hab
    · simp at hab
    · next hne =>
      obtain ⟨rfl, rfl⟩ := Segment.change.inj (List.mem_singleton.1 hab)
      simpa [Decidable.or_iff_not_imp_left] using hne
  | case2 old new m o n shared h ih ih' =>
    intro a b hab
    rcases List.mem_append.1 hab with hab | hab
    · exact ih a b hab
    · rcases List.mem_cons.1 hab with hab | hab
      · cases hab
      · exact ih' a b hab

/-- No two changes of an alignment are neighbours. -/
theorem parted_align (old new : Text) : (align old new).IsChain Parted := by
  fun_induction align old new with
  | case1 old new m o n shared h =>
    unfold changeOf
    split <;> simp
  | case2 old new m o n shared h ih ih' =>
    refine ih.append (ih'.cons ?_) ?_
    · intro r _
      exact Or.inl rfl
    · intro s _ r hr
      obtain rfl := Option.some.inj hr
      exact Or.inr rfl

end GhostText
