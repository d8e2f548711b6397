import GhostText.Proofs.Document.Positions
import GhostText.Proofs.Document.Stretches

/-!
# Widened and joined stretches

Where lines end with two characters, stretches that begin or end between the two are widened by one
character. What is kept between two stretches holds the same characters in both texts, so it cannot
lose its only character twice: stretches may come to touch, and then they are joined, but never to
overlap. The result still leads from the one text to the other.
-/

namespace GhostText.Diff

variable {old new : Text}

theorem splitsBreak_iff (t : Text) (i : Nat) : splitsBreak t i = true ↔
    0 < i ∧ t[i - 1]? = some '\r' ∧ t[i]? = some '\n' := by
  simp [splitsBreak, and_assoc]

/-- By how much a stretch is widened at a place. -/
def pad (old new : Text) (o n : Nat) : Nat :=
  if splitsBreak old o || splitsBreak new n then 1 else 0

theorem widen_eq (old new : Text) (s : Span) : widen old new s =
    ⟨s.oldStart - pad old new s.oldStart s.newStart, s.oldStop + pad old new s.oldStop s.newStop,
      s.newStart - pad old new s.oldStart s.newStart,
      s.newStop + pad old new s.oldStop s.newStop⟩ := rfl

/-- The end of a stretch is moved by one character where a line break of either text would be split
there, and else not at all. -/
theorem pad_eq (old new : Text) (o n : Nat) :
    pad old new o n = 0 ∧ splitsBreak old o = false ∧ splitsBreak new n = false ∨
      pad old new o n = 1 ∧ (splitsBreak old o ∨ splitsBreak new n) := by
  unfold pad
  cases splitsBreak old o <;> cases splitsBreak new n <;> simp

@[simp] theorem pad_zero (old new : Text) : pad old new 0 0 = 0 := by
  simp [pad, splitsBreak]

/-- A stretch is widened forwards by a line feed. -/
theorem Same.behind_pad {o n o' n' : Nat} (h : Same old new o n o' n') (ho : o < o')
    (hp : pad old new o n = 1) : old[o]? = some '\n' ∧ new[n]? = some '\n' := by
  have he : old[o]? = new[n]? := h.chars 0 ho
  rcases pad_eq old new o n with ⟨hz, _⟩ | ⟨_, hs | hs⟩
  · omega
  · have hc := ((splitsBreak_iff old o).1 hs).2.2
    exact ⟨hc, he ▸ hc⟩
  · have hc := ((splitsBreak_iff new n).1 hs).2.2
    exact ⟨he ▸ hc, hc⟩

/-- A stretch is widened backwards by a carriage return. -/
theorem Same.before_pad {o n o' n' : Nat} (h : Same old new o n o' n') (ho : o < o')
    (hp : pad old new o' n' = 1) : old[o' - 1]? = some '\r' ∧ new[n' - 1]? = some '\r' := by
  have hl := h.length
  have he : old[o' - 1]? = new[n' - 1]? := by
    have hk := h.chars (o' - 1 - o) (by omega)
    have ho' : o + (o' - 1 - o) = o' - 1 := by omega
    have hn' : n + (o' - 1 - o) = n' - 1 := by omega
    rwa [ho', hn'] at hk
  rcases pad_eq old new o' n' with ⟨hz, _⟩ | ⟨_, hs | hs⟩
  · omega
  · have hc := ((splitsBreak_iff old o').1 hs).2.1
    exact ⟨hc, he ▸ hc⟩
  · have hc := ((splitsBreak_iff new n').1 hs).2.1
    exact ⟨he ▸ hc, hc⟩

/-- Something is kept before a stretch, or it stands at the start of both texts. -/
def Clear (o n : Nat) (ss : List Span) : Prop := ∀ s ∈ ss.head?, o < s.oldStart ∨ o = 0 ∧ n = 0

/-- Stretches that are apart are clear of the one before them. -/
theorem clear_of_chain {s : Span} {rest : List Span} (h : (s :: rest).IsChain Apart) :
    Clear s.oldStop s.newStop rest :=
  fun _ hr => Or.inl ((List.isChain_cons.1 h).1 _ hr)

/-- The kept characters are enough for both stretches beside them. -/
theorem Same.pad_le {o n o' n' : Nat} (h : Same old new o n o' n')
    (hc : o < o' ∨ o = 0 ∧ n = 0) : o + pad old new o n + pad old new o' n' ≤ o' := by
  have hle := h.le
  have hl := h.length
  by_cases ho : o < o'
  · rcases pad_eq old new o n with ⟨hp, _⟩ | ⟨hp, _⟩ <;>
      rcases pad_eq old new o' n' with ⟨hq, _⟩ | ⟨hq, _⟩
    · omega
    · omega
    · omega
    · have hlf := (h.behind_pad ho hp).1
      have hcr := (h.before_pad ho hq).1
      have hne : o ≠ o' - 1 := by
        intro e
        rw [← e, hlf] at hcr
        simp at hcr
      omega
  · have hz : o = 0 ∧ n = 0 ∧ o' = 0 ∧ n' = 0 := by omega
    obtain ⟨rfl, rfl, rfl, rfl⟩ := hz
    simp

/-- Behind the last stretch there is a character to be widened by, if it has to be widened. -/
theorem Follows.behind_pad {o n : Nat} {ss : List Span} (h : Follows old new o n ss)
    (hc : ∀ s ∈ ss.head?, o < s.oldStart) (hp : pad old new o n = 1) :
    old[o]? = some '\n' ∧ new[n]? = some '\n' := by
  cases ss with
  | nil =>
    have hs : Same old new o n old.length new.length := h
    have hl := hs.length
    refine hs.behind_pad ?_ hp
    rcases pad_eq old new o n with ⟨hz, _⟩ | ⟨_, hs | hs⟩
    · omega
    · exact (List.getElem?_eq_some_iff.1 ((splitsBreak_iff old o).1 hs).2.2).1
    · have := (List.getElem?_eq_some_iff.1 ((splitsBreak_iff new n).1 hs).2.2).1
      omega
  | cons s rest => exact h.1.behind_pad (hc s rfl) hp

/-- Widened stretches still lead from the one text to the other. -/
theorem follows_widen {o n : Nat} {ss : List Span} (h : Follows old new o n ss)
    (hc : Clear o n ss) (ha : ss.IsChain Apart) :
    Follows old new (o + pad old new o n) (n + pad old new o n) (ss.map (widen old new)) := by
  induction ss generalizing o n with
  | nil =>
    have hs : Same old new o n old.length new.length := h
    refine hs.inner (q := 0) ?_
    rcases pad_eq old new o n with ⟨hp, _⟩ | ⟨hp, _⟩
    · have := hs.le
      omega
    · have := (List.getElem?_eq_some_iff.1 (h.behind_pad (by simp) hp).1).1
      omega
  | cons s rest ih =>
    obtain ⟨h₁, h₂, h₃, h₄⟩ := h
    refine ⟨h₁.inner (h₁.pad_le (hc s rfl)), ?_, ?_, ih h₄ (clear_of_chain ha) ha.tail⟩
    · rw [widen_eq]
      simp only
      omega
    · rw [widen_eq]
      simp only
      omega

/-- A stretch that is widened still changes something. -/
theorem effective_widen {s : Span} (h : s.Effective) : (widen old new s).Effective := by
  simp only [Span.Effective, widen_eq] at h ⊢
  omega

structure Whole (old new : Text) (s : Span) : Prop where
  oldStart : splitsBreak old s.oldStart = false
  oldStop : splitsBreak old s.oldStop = false
  newStart : splitsBreak new s.newStart = false
  newStop : splitsBreak new s.newStop = false

theorem splitsBreak_behind {t : Text} {i : Nat} (h : t[i]? = some '\n') :
    splitsBreak t (i + 1) = false := by
  simp [splitsBreak, h]

theorem splitsBreak_before {t : Text} {i : Nat} (h : t[i]? = some '\r') :
    splitsBreak t i = false := by
  simp [splitsBreak, h]

/-- Where something is kept before it, a widened stretch begins with no line break split in either
text. -/
theorem Same.whole_start {o n o' n' : Nat} (h : Same old new o n o' n')
    (hc : o < o' ∨ o = 0 ∧ n = 0) :
    splitsBreak old (o' - pad old new o' n') = false ∧
      splitsBreak new (n' - pad old new o' n') = false := by
  rcases pad_eq old new o' n' with ⟨hp, ho, hn⟩ | ⟨hp, _⟩
  · rw [hp]
    exact ⟨ho, hn⟩
  · have hle := h.pad_le hc
    have hcr := h.before_pad (by omega) hp
    rw [hp]
    exact ⟨splitsBreak_before hcr.1, splitsBreak_before hcr.2⟩

/-- Where something is kept behind it, a widened stretch ends with no line break split in either
text. -/
theorem Follows.whole_stop {o n : Nat} {ss : List Span} (h : Follows old new o n ss)
    (hc : ∀ s ∈ ss.head?, o < s.oldStart) :
    splitsBreak old (o + pad old new o n) = false ∧
      splitsBreak new (n + pad old new o n) = false := by
  rcases pad_eq old new o n with ⟨hp, ho, hn⟩ | ⟨hp, _⟩
  · rw [hp]
    exact ⟨ho, hn⟩
  · have hlf := h.behind_pad hc hp
    rw [hp]
    exact ⟨splitsBreak_behind hlf.1, splitsBreak_behind hlf.2⟩

/-- One step on each side is enough. -/
theorem Follows.whole_widen {o n : Nat} {ss : List Span} (h : Follows old new o n ss)
    (hc : Clear o n ss) (ha : ss.IsChain Apart) :
    ∀ s ∈ ss.map (widen old new), Whole old new s := by
  induction ss generalizing o n with
  | nil => simp
  | cons s rest ih =>
    obtain ⟨h₁, h₂, h₃, h₄⟩ := h
    have hstart := h₁.whole_start (hc s rfl)
    have hstop := h₄.whole_stop (List.isChain_cons.1 ha).1
    intro r hr
    rcases List.mem_cons.1 hr with rfl | hr
    · exact ⟨hstart.1, hstop.1, hstart.2, hstop.2⟩
    · exact ih h₄ (clear_of_chain ha) ha.tail r hr

/-- Joining read from the front: a stretch takes up those that touch it. -/
def joinFrom (last : Span) : List Span → List Span
  | [] => [last]
  | s :: rest =>
    if s.oldStart ≤ last.oldStop then
      joinFrom ⟨last.oldStart, max last.oldStop s.oldStop, last.newStart,
        max last.newStop s.newStop⟩ rest
    else last :: joinFrom s rest

/-- Joining one stretch after the other is a recursion over the last one that was kept. -/
theorem foldl_join (last : Span) (done ss : List Span) :
    (ss.foldl join (last :: done)).reverse = done.reverse ++ joinFrom last ss := by
  induction ss generalizing last done with
  | nil => simp [joinFrom]
  | cons s rest ih =>
    rw [List.foldl_cons, join, joinFrom]
    split
    · exact ih _ _
    · rw [ih, List.reverse_cons, List.append_assoc, List.singleton_append]

@[simp] theorem joinAll_nil : joinAll [] = [] := rfl

theorem joinAll_cons (s : Span) (rest : List Span) : joinAll (s :: rest) = joinFrom s rest := by
  simpa [joinAll, join] using foldl_join s [] rest

/-- Stretches that touch may be joined. -/
theorem follows_joinFrom {o n : Nat} {last : Span} {ss : List Span}
    (h : Follows old new o n (last :: ss)) : Follows old new o n (joinFrom last ss) := by
  induction ss generalizing o n last with
  | nil => exact h
  | cons s rest ih =>
    obtain ⟨h₁, h₂, h₃, g₁, g₂, g₃, g₄⟩ := h
    rw [joinFrom]
    split
    · next ht =>
      have hle := g₁.le
      have hl := g₁.length
      have ho : max last.oldStop s.oldStop = s.oldStop := by omega
      have hn : max last.newStop s.newStop = s.newStop := by omega
      rw [ho, hn]
      exact ih ⟨h₁, by simp only; omega, by simp only; omega, g₄⟩
    · exact ⟨h₁, h₂, h₃, ih ⟨g₁, g₂, g₃, g₄⟩⟩

/-- A joined stretch begins where its first one does. -/
theorem head_joinFrom (last : Span) (ss : List Span) :
    ∀ s ∈ (joinFrom last ss).head?, s.oldStart = last.oldStart := by
  induction ss generalizing last with
  | nil => simp [joinFrom]
  | cons s rest ih =>
    rw [joinFrom]
    split
    · exact ih _
    · simp

/-- What is left after joining is apart. -/
theorem apart_joinFrom (last : Span) (ss : List Span) : (joinFrom last ss).IsChain Apart := by
  induction ss generalizing last with
  | nil => simp [joinFrom]
  | cons s rest ih =>
    rw [joinFrom]
    split
    · exact ih _
    · next hlt =>
      refine (ih s).cons ?_
      intro r hr
      have := head_joinFrom s rest r hr
      simp only [Apart]
      omega

theorem splitsBreak_max {t : Text} {i j : Nat} (hi : splitsBreak t i = false)
    (hj : splitsBreak t j = false) : splitsBreak t (max i j) = false := by
  rcases Nat.le_total i j with h | h
  · rwa [Nat.max_eq_right h]
  · rwa [Nat.max_eq_left h]

/-- Joining splits no line break. -/
theorem whole_joinFrom {last : Span} {ss : List Span} (hl : Whole old new last)
    (hs : ∀ s ∈ ss, Whole old new s) : ∀ s ∈ joinFrom last ss, Whole old new s := by
  induction ss generalizing last with
  | nil => simpa [joinFrom] using hl
  | cons s rest ih =>
    have h := hs s List.mem_cons_self
    have hrest := fun r hr => hs r (List.mem_cons_of_mem s hr)
    rw [joinFrom]
    split
    · exact ih ⟨hl.oldStart, splitsBreak_max hl.oldStop h.oldStop, hl.newStart,
        splitsBreak_max hl.newStop h.newStop⟩ hrest
    · intro r hr
      rcases List.mem_cons.1 hr with rfl | hr
      · exact hl
      · exact ih h hrest r hr

/-- A joined stretch changes something if those in it do. -/
theorem effective_joinFrom {last : Span} {ss : List Span} (hl : last.Effective)
    (hs : ∀ s ∈ ss, s.Effective) : ∀ s ∈ joinFrom last ss, s.Effective := by
  induction ss generalizing last with
  | nil => simpa [joinFrom] using hl
  | cons s rest ih =>
    have hrest := fun r hr => hs r (List.mem_cons_of_mem s hr)
    rw [joinFrom]
    split
    · refine ih ?_ hrest
      simp only [Span.Effective] at hl ⊢
      omega
    · intro r hr
      rcases List.mem_cons.1 hr with rfl | hr
      · exact hl
      · exact ih (hs s List.mem_cons_self) hrest r hr

end GhostText.Diff
