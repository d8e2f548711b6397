import GhostText.Proofs.Document.Spans

/-!
# The stretches that are found

The stretches of any alignment lead from the one text to the other and are apart from each other,
and so do the ones found between the common start and the common end of two texts, and the one found
at a caret. If the two texts are not the same, each of them changes something.
-/

namespace GhostText.Diff

open Segment

variable {old new : Text}

/-- The stretches of an alignment that stands between a start and a common end. -/
theorem follows_spansFrom (segments : List Segment) (before before' behind : Text) :
    Follows (before ++ segments.flatMap Segment.old ++ behind)
      (before' ++ segments.flatMap Segment.new ++ behind) before.length before'.length
      (spansFrom before.length before'.length segments) := by
  induction segments generalizing before before' with
  | nil =>
    have hs := Same.of_append before before' behind [] []
    simpa [spansFrom, Follows] using hs
  | cons s rest ih =>
    cases s with
    | keep t =>
      have hs := Same.of_append before before' t (rest.flatMap Segment.old ++ behind)
        (rest.flatMap Segment.new ++ behind)
      have h := ih (before ++ t) (before' ++ t)
      simp only [List.length_append, List.append_assoc] at h hs
      simp only [spansFrom, List.flatMap_cons, Segment.old, Segment.new, List.append_assoc]
      exact h.back hs
    | change a b =>
      have h := ih (before ++ a) (before' ++ b)
      simp only [List.length_append, List.append_assoc] at h
      simp only [spansFrom, List.flatMap_cons, Segment.old, Segment.new, List.append_assoc]
      exact ⟨Same.refl _ _ _ _, Nat.le_add_right _ _, Nat.le_add_right _ _, h⟩

theorem le_spansFrom (segments : List Segment) (o n : Nat) :
    ∀ s ∈ spansFrom o n segments, o ≤ s.oldStart := by
  induction segments generalizing o n with
  | nil => simp [spansFrom]
  | cons s rest ih =>
    intro r hr
    cases s with
    | keep t =>
      have := ih _ _ r hr
      omega
    | change a b =>
      rcases List.mem_cons.1 hr with rfl | hr
      · exact Nat.le_refl o
      · have := ih _ _ r hr
        omega

/-- Behind a change comes a kept stretch, which holds something. -/
theorem apart_spansFrom {segments : List Segment} (hs : Solid segments)
    (hp : segments.IsChain Parted) (o n : Nat) : (spansFrom o n segments).IsChain Apart := by
  induction segments generalizing o n with
  | nil => simp [spansFrom]
  | cons s rest ih =>
    have hs' : Solid rest := fun t ht => hs t (List.mem_cons_of_mem _ ht)
    cases s with
    | keep t => exact ih hs' hp.tail _ _
    | change a b =>
      refine List.IsChain.cons (ih hs' hp.tail _ _) ?_
      intro r hr
      cases rest with
      | nil => simp [spansFrom] at hr
      | cons s rest =>
        cases s with
        | keep t =>
          have ht := List.length_pos_iff.2 (hs' t List.mem_cons_self)
          have := le_spansFrom rest _ _ r (List.mem_of_mem_head? hr)
          simp only [Apart]
          omega
        | change c d => simp [Parted, isKeep] at hp

theorem effective_spansFrom {segments : List Segment} (hd : Differing segments) (o n : Nat) :
    ∀ s ∈ spansFrom o n segments, s.Effective := by
  induction segments generalizing o n with
  | nil => simp [spansFrom]
  | cons s rest ih =>
    have hd' : Differing rest := fun a b hab => hd a b (List.mem_cons_of_mem _ hab)
    cases s with
    | keep t => exact ih hd' _ _
    | change a b =>
      intro r hr
      rcases List.mem_cons.1 hr with rfl | hr
      · have hab := hd a b List.mem_cons_self
        rw [← List.length_pos_iff, ← List.length_pos_iff] at hab
        simp only [Span.Effective]
        omega
      · exact ih hd' _ _ r hr

/-- What two texts share at their end stands behind what they do not share there. -/
theorem take_append_commonEnd (a b : Text) :
    a.take (a.length - (Align.commonStart a.reverse b.reverse).length) ++
      (Align.commonStart a.reverse b.reverse).reverse = a := by
  obtain ⟨rest, hr⟩ := Align.commonStart_prefix_left a.reverse b.reverse
  have ha : a = rest.reverse ++ (Align.commonStart a.reverse b.reverse).reverse := by
    rw [← List.reverse_append, hr, List.reverse_reverse]
  generalize Align.commonStart a.reverse b.reverse = shared at ha
  have ht : a.take (a.length - shared.length) = rest.reverse := by
    rw [ha]
    simp
  rw [ht, ← ha]

/-- The stretches found are those of one alignment between the common start and the common end. -/
theorem spans_eq_spansFrom (old new : Text) : ∃ before segments behind,
    old = before ++ segments.flatMap Segment.old ++ behind ∧
    new = before ++ segments.flatMap Segment.new ++ behind ∧
    Solid segments ∧ segments.IsChain Parted ∧ (old ≠ new → Differing segments) ∧
    spans old new = spansFrom before.length before.length segments := by
  let before := Align.commonStart old new
  let oldRest := old.drop before.length
  let newRest := new.drop before.length
  let behind := Align.commonStart oldRest.reverse newRest.reverse
  let oldMid := oldRest.take (oldRest.length - behind.length)
  let newMid := newRest.take (newRest.length - behind.length)
  have hold : old = before ++ oldMid ++ behind.reverse := by
    rw [List.append_assoc, take_append_commonEnd]
    exact (List.prefix_iff_eq_append.1 (Align.commonStart_prefix_left old new)).symm
  have hnew : new = before ++ newMid ++ behind.reverse := by
    have he := take_append_commonEnd newRest oldRest
    rw [Align.commonStart_comm] at he
    rw [List.append_assoc, he]
    exact (List.prefix_iff_eq_append.1 (Align.commonStart_prefix_right old new)).symm
  by_cases h : oldMid.isEmpty || newMid.isEmpty
  · refine ⟨before, [.change oldMid newMid], behind.reverse, ?_, ?_, ?_, ?_, ?_, ?_⟩
    · simpa [Segment.old] using hold
    · simpa [Segment.new] using hnew
    · simp [Solid]
    · simp
    · intro hne a b hab
      obtain ⟨rfl, rfl⟩ := Segment.change.inj (List.mem_singleton.1 hab)
      by_contra hboth
      obtain ⟨ho, hn⟩ := not_or.1 hboth
      exact hne (by rw [hold, hnew, not_not.1 ho, not_not.1 hn])
    · exact if_pos h
  · refine ⟨before, align oldMid newMid, behind.reverse, ?_, ?_, solid_align _ _,
      parted_align _ _, fun _ => differing_align _ _, ?_⟩
    · rw [old_align]
      exact hold
    · rw [new_align]
      exact hnew
    · exact if_neg h

/-- The stretches that are found lead from the one text to the other. -/
theorem follows_spans (old new : Text) : Follows old new 0 0 (spans old new) := by
  obtain ⟨before, segments, behind, ho, hn, _, _, _, he⟩ := spans_eq_spansFrom old new
  have hs := Same.of_append [] [] before (segments.flatMap Segment.old ++ behind)
    (segments.flatMap Segment.new ++ behind)
  have h := follows_spansFrom segments before before behind
  simp only [List.nil_append, List.length_nil, Nat.zero_add, ← List.append_assoc] at hs
  rw [he, ho, hn]
  exact h.back hs

/-- Between two stretches that are found something is kept. -/
theorem apart_spans (old new : Text) : (spans old new).IsChain Apart := by
  obtain ⟨before, segments, behind, _, _, hs, hp, _, he⟩ := spans_eq_spansFrom old new
  rw [he]
  exact apart_spansFrom hs hp _ _

/-- If the texts differ, each stretch that is found changes something. -/
theorem effective_spans (hne : old ≠ new) : ∀ s ∈ spans old new, s.Effective := by
  obtain ⟨before, segments, behind, _, _, _, _, hd, he⟩ := spans_eq_spansFrom old new
  rw [he]
  exact effective_spansFrom (hd hne) _ _

theorem Same.of_take {i : Nat} (h : old.take i = new.take i) : Same old new 0 0 i i := by
  refine ⟨Nat.zero_le i, rfl, ?_⟩
  intro k hk
  rw [Nat.zero_add] at hk ⊢
  calc old[k]? = (old.take i)[k]? := (List.getElem?_take_of_lt hk).symm
    _ = (new.take i)[k]? := by rw [h]
    _ = new[k]? := List.getElem?_take_of_lt hk

theorem Same.of_drop {o n : Nat} (ho : o ≤ old.length) (hn : n ≤ new.length)
    (h : old.drop o = new.drop n) : Same old new o n old.length new.length := by
  have hl := congrArg List.length h
  rw [List.length_drop, List.length_drop] at hl
  refine ⟨ho, by omega, ?_⟩
  intro k hk
  rw [← List.getElem?_drop, h, List.getElem?_drop]

def Single (p : Splice) : Prop := p.start = p.stop ∧ p.text ≠ [] ∨ p.start < p.stop ∧ p.text = []

theorem Single.le {p : Splice} (h : Single p) : p.start ≤ p.stop := by
  rcases h with ⟨h, _⟩ | ⟨h, _⟩ <;> omega

/-- What is found at a caret is the one insertion or deletion that leaves the caret behind it. -/
theorem caretSpan?_eq_some_iff {caret : Nat} {s : Span} : caretSpan? old new caret = some s ↔
    ∃ p : Splice, Single p ∧ p.stop ≤ old.length ∧ p.apply old = new ∧
      p.start + p.text.length = caret ∧ s = ⟨p.start, p.stop, p.start, caret⟩ := by
  constructor
  · intro h
    unfold caretSpan? at h
    split at h
    · simp at h
    · next hle =>
      split at h
      · -- the new text is longer: what is left of the caret was inserted
        next hlt =>
        simp only [Option.ite_none_right_eq_some, Option.some.injEq] at h
        generalize hi : caret - (new.length - old.length) = i at h
        obtain ⟨⟨hd, ht, hb⟩, rfl⟩ := h
        have hlen : (Text.slice new i caret).length = caret - i := by
          rw [Text.slice, List.length_drop, List.length_take_of_le (by omega)]
        refine ⟨⟨i, i, Text.slice new i caret⟩, .inl ⟨rfl, ?_⟩, ?_, ?_, ?_, rfl⟩
        · rw [← List.length_pos_iff, hlen]
          omega
        · show i ≤ old.length
          omega
        · rw [Splice.apply, ← ht, ← hb, List.append_assoc, slice_append_drop (by omega),
            List.take_append_drop]
        · show i + (Text.slice new i caret).length = caret
          omega
      · split at h
        · -- the new text is shorter: what was right of the caret was deleted
          next hlt =>
          simp only [Option.ite_none_right_eq_some, Option.some.injEq] at h
          generalize hj : caret + (old.length - new.length) = j at h
          obtain ⟨⟨hd, ht, hb⟩, rfl⟩ := h
          refine ⟨⟨caret, j, []⟩, .inr ⟨?_, rfl⟩, hd, ?_, rfl, rfl⟩
          · show caret < j
            omega
          · rw [Splice.apply, ht, hb, List.append_nil, List.take_append_drop]
        · simp at h
  · rintro ⟨p, hp, hstop, rfl, rfl, rfl⟩
    have hstart := hp.le.trans hstop
    have hlen := Splice.length_apply hstart
    have htake := Splice.take_apply hstart
    have hdrop := Splice.drop_apply hstart
    rw [caretSpan?, if_neg (by omega)]
    rcases hp with ⟨he, hu⟩ | ⟨hlt, hu⟩
    · have hpos := List.length_pos_iff.2 hu
      have hi : p.start + p.text.length - ((p.apply old).length - old.length) = p.start := by omega
      rw [if_pos (by omega)]
      simp only [hi, htake, hdrop, ← he, and_true]
      rw [if_pos (by omega)]
    · have hj : p.start + (old.length - (p.apply old).length) = p.stop := by
        rw [hu, List.length_nil] at hlen
        omega
      rw [hu, List.length_nil, Nat.add_zero] at hlen hdrop
      rw [hu, List.length_nil, Nat.add_zero, if_neg (by omega), if_pos (by omega)]
      simp only [hj, htake, hdrop, and_true]
      rw [if_pos hstop]

/-- The one change found at a caret leads from the one text to the other. -/
theorem follows_caretSpan {caret : Nat} {s : Span} (h : caretSpan? old new caret = some s) :
    Follows old new 0 0 [s] := by
  obtain ⟨p, hp, hstop, rfl, rfl, rfl⟩ := caretSpan?_eq_some_iff.1 h
  have hstart := hp.le.trans hstop
  have hlen := Splice.length_apply hstart
  refine ⟨Same.of_take (Splice.take_apply hstart).symm, hp.le, Nat.le_add_right _ _,
    Same.of_drop hstop ?_ (Splice.drop_apply hstart).symm⟩
  show p.start + p.text.length ≤ (p.apply old).length
  omega

/-- The stretch at a caret changes something. -/
theorem effective_caretSpan {caret : Nat} {s : Span} (h : caretSpan? old new caret = some s) :
    s.Effective := by
  obtain ⟨p, hp, _, _, hcaret, rfl⟩ := caretSpan?_eq_some_iff.1 h
  rcases hp with ⟨_, hu⟩ | ⟨hlt, _⟩
  · have := List.length_pos_iff.2 hu
    exact .inr (by simp only; omega)
  · exact .inl hlt

end GhostText.Diff
