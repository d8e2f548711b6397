import GhostText.Proofs.Document.Callers
import GhostText.Proofs.Document.Together

/-!
# Edits of one text in any order

The splices that edits are resolved to lie in the text that all of them are about, however their
coordinates are written. So edits of different stretches that are clear of each other may be handed
over in any order, and all are made at once; texts inserted at one place come out in the reverse
order.
-/

namespace GhostText

variable {b : LineBreak} {t : Text}

/-- Where a position has an offset at all, it has that of a position with whole coordinates. -/
theorem UncheckedPosition.exists_offsetAt {p : UncheckedPosition} {n : Nat}
    (h : p.offset b.text t = .ok n) : ∃ q, Text.offsetAt b.text t q = n := by
  have heol : b.text.isEmpty = false := by cases b <;> rfl
  unfold UncheckedPosition.offset at h
  by_cases ht : t.isEmpty
  · rw [if_pos ht, Except.ok.injEq] at h
    refine ⟨⟨0, 0⟩, ?_⟩
    rw [List.isEmpty_iff.1 ht, Text.offsetAt_nil, h]
  rw [if_neg ht, if_neg (by simp [heol])] at h
  obtain ⟨line, -, h⟩ := exists_of_bind_eq_ok h
  dsimp only at h
  cases hl : (Text.pieces b.text t)[line]? with
  | none =>
    rw [hl] at h
    obtain rfl : t.length = n := Except.ok.inj h
    exact ⟨⟨line, 0⟩, by simp only [Text.offsetAt_eq, hl]⟩
  | some l =>
    rw [hl] at h
    dsimp only at h
    split at h
    · next hempty =>
      obtain rfl : Text.lineStart b.text (Text.pieces b.text t) line = n := Except.ok.inj h
      refine ⟨⟨line, 0⟩, ?_⟩
      simp only [Text.offsetAt_eq, hl, List.isEmpty_iff.1 hempty, Text.indexOfUnits_nil,
        Nat.add_zero]
    · obtain ⟨character, -, h⟩ := exists_of_bind_eq_ok h
      obtain rfl := Except.ok.inj h
      exact ⟨⟨line, character⟩, by simp only [Text.offsetAt_eq, hl]⟩

/-- However its coordinates are written, a position is read as an offset inside the text. -/
theorem UncheckedPosition.offset_le {p : UncheckedPosition} {n : Nat}
    (h : p.offset b.text t = .ok n) : n ≤ t.length := by
  obtain ⟨q, rfl⟩ := exists_offsetAt h
  exact Text.offsetAt_le_length t q

theorem Text.ascending_le (m n : Nat) :
    (Text.ascending m n).1 ≤ (Text.ascending m n).2 ∧ (Text.ascending m n).2 ≤ max m n := by
  unfold Text.ascending
  split <;> simp only <;> omega

/-- However its ends are written, a range is read as one inside the text. -/
theorem UncheckedRange.offsets_le {r : UncheckedRange} {o : Nat × Nat}
    (h : r.offsets b.text t = .ok o) : o.1 ≤ o.2 ∧ o.2 ≤ t.length := by
  obtain ⟨m, hstart, h⟩ := exists_of_bind_eq_ok h
  obtain ⟨n, hstop, h⟩ := exists_of_bind_eq_ok h
  obtain rfl : Text.ascending m n = o := Except.ok.inj h
  have hasc := Text.ascending_le m n
  have hm := UncheckedPosition.offset_le hstart
  have hn := UncheckedPosition.offset_le hstop
  omega

namespace EditItem

def ofEdit (c : TextChange) : EditItem := .edit c.range.unchecked (.str (String.ofList c.text))

theorem describes_ofEdit (c : TextChange) : (ofEdit c).Describes c := by
  refine ⟨c.range.unchecked, ?_, fun _ _ => rfl⟩
  simp [ofEdit, reading, Json.shown]

/-- Every splice that edits are resolved to lies inside the text. -/
theorem splices_within (t : Text) (items : List EditItem) :
    ∀ s ∈ splices b.text t items, s.start ≤ s.stop ∧ s.stop ≤ t.length := by
  intro s hs
  obtain ⟨i, -, hi⟩ := List.mem_filterMap.1 hs
  cases hr : i.resolve b.text t with
  | error e => simp [splice?, hr, Except.toOption] at hi
  | ok s' =>
    rw [splice?_of_resolve hr] at hi
    subst hi
    obtain ⟨-, hn⟩ | ⟨e, o, -, ho, hs⟩ := resolve_cases hr
    · cases hn
    · cases hs
      exact UncheckedRange.offsets_le ho

/-- Edits of different stretches that are clear of each other are all made at once, in whichever
order they are handed over. -/
theorem applyAll_any_order {items items' : List EditItem} (h : Resolved b.text t items)
    (hc : (splices b.text t items).Pairwise Splice.Clear)
    (hd : (splices b.text t items).Pairwise fun s r => (s.start, s.stop) ≠ (r.start, r.stop))
    (hp : items'.Perm items) :
    applyAll b.text t items' = .ok (Splice.atOnce t (splices b.text t items)) := by
  have h' : Resolved b.text t items' := fun i hi => h i (hp.mem_iff.1 hi)
  have hs : (splices b.text t items').Perm (splices b.text t items) := hp.filterMap _
  have hc' := (hs.pairwise_iff Splice.Clear.symm).2 hc
  rw [applyAll_of_resolved h', Splice.applyAll_eq_atOnce (splices_within t items') hc',
    Splice.atOnce_perm ((List.reverse_perm _).trans hs).symm hc hd]

/-- A replaced stretch, an insertion where it ends, and another replaced stretch behind that. -/
theorem applyAll_any_order_touching :
    let replaced : TextChange := ⟨⟨⟨0, 1⟩, ⟨0, 3⟩⟩, ['Y']⟩
    let inserted : TextChange := ⟨Range.empty ⟨0, 3⟩, ['I']⟩
    let behind : TextChange := ⟨⟨⟨0, 3⟩, ⟨0, 4⟩⟩, ['X']⟩
    applyAll LineBreak.lf.text ['a', '😀', 'c', 'd']
        [ofChange inserted, .value replaced.toJson, ofEdit behind] =
      .ok ['a', 'Y', 'I', 'X', 'd'] := by
  intro replaced inserted behind
  have hdescribed : List.Forall₂ Describes
      [ofEdit behind, ofChange inserted, .value replaced.toJson] [behind, inserted, replaced] :=
    .cons (describes_ofEdit _) (.cons (describes_ofChange _) (.cons (describes_toJson _) .nil))
  obtain ⟨hresolved, hsplices⟩ :=
    splices_of_describes (b := .lf) (t := ['a', '😀', 'c', 'd']) hdescribed
  have hmade := applyAll_any_order hresolved (by rw [hsplices]; decide) (by rw [hsplices]; decide)
    ((List.Perm.swap _ _ _).trans ((List.Perm.swap _ _ _).cons _)).symm
  rw [hmade, hsplices]
  exact congrArg Except.ok (by decide +kernel)

/-- Edits that are clear of each other are made at once with the texts inserted at one place in the
reverse order. They stand in the order given exactly if that makes no difference. -/
theorem applyAll_insertions {items : List EditItem} (h : Resolved b.text t items)
    (hc : (splices b.text t items).Pairwise Splice.Clear) :
    applyAll b.text t items = .ok (Splice.atOnce t (splices b.text t items).reverse) ∧
    (applyAll b.text t items = .ok (Splice.atOnce t (splices b.text t items)) ↔
      ∀ i ≤ t.length, Splice.insertedAt i (splices b.text t items).reverse =
        Splice.insertedAt i (splices b.text t items)) := by
  have hall := Splice.applyAll_eq_atOnce (splices_within t items) hc
  rw [applyAll_of_resolved h, hall]
  refine ⟨rfl, ?_⟩
  rw [Except.ok.injEq]
  exact Splice.atOnce_reverse_eq_iff hc

/-- Two insertions at one place beside a replaced stretch, all of them in the order given as the
texts inserted are the same. -/
theorem applyAll_insertions_alike :
    let inserted : TextChange := ⟨Range.empty ⟨0, 1⟩, ['I']⟩
    let replaced : TextChange := ⟨⟨⟨0, 1⟩, ⟨0, 2⟩⟩, ['Y']⟩
    applyAll LineBreak.lf.text ['a', 'b']
        [ofEdit inserted, .value replaced.toJson, ofChange inserted] =
      .ok ['a', 'I', 'I', 'Y'] := by
  intro inserted replaced
  have hdescribed : List.Forall₂ Describes
      [ofEdit inserted, .value replaced.toJson, ofChange inserted] [inserted, replaced, inserted] :=
    .cons (describes_ofEdit _) (.cons (describes_toJson _) (.cons (describes_ofChange _) .nil))
  obtain ⟨hresolved, hsplices⟩ :=
    splices_of_describes (b := .lf) (t := ['a', 'b']) hdescribed
  have hmade := applyAll_insertions hresolved (by rw [hsplices]; decide)
  rw [hsplices] at hmade
  rw [hmade.2.2 (by decide)]
  exact congrArg Except.ok (by decide +kernel)

/-- Two texts inserted at the start of a line: the one given first comes out last. -/
theorem insertions_come_out_reversed :
    let a : TextChange := ⟨Range.empty ⟨0, 0⟩, ['a']⟩
    let b : TextChange := ⟨Range.empty ⟨0, 0⟩, ['b']⟩
    let items := [ofEdit a, ofEdit b]
    Resolved LineBreak.lf.text ['x'] items ∧
      (splices LineBreak.lf.text ['x'] items).Pairwise Splice.Clear ∧
      applyAll LineBreak.lf.text ['x'] items = .ok ['b', 'a', 'x'] ∧
      Splice.atOnce ['x'] (splices LineBreak.lf.text ['x'] items) = ['a', 'b', 'x'] := by
  intro a b items
  have hdescribed : List.Forall₂ Describes items [a, b] :=
    .cons (describes_ofEdit _) (.cons (describes_ofEdit _) .nil)
  obtain ⟨hresolved, hsplices⟩ := splices_of_describes (b := .lf) (t := ['x']) hdescribed
  have hclear : (splices LineBreak.lf.text ['x'] items).Pairwise Splice.Clear := by
    rw [hsplices]
    decide
  have hmade := Splice.applyAll_eq_atOnce (splices_within ['x'] items) hclear
  refine ⟨hresolved, hclear, ?_, ?_⟩
  · rw [applyAll_of_resolved hresolved, hmade, hsplices]
    exact congrArg Except.ok (by decide +kernel)
  · rw [hsplices]
    rfl

end EditItem

end GhostText
