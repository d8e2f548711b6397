import GhostText.Proofs.Document.Offsets
import GhostText.Proofs.Document.Patch

/-!
# The shape of the changes between two texts

Changes come in the order of the text, each range ends before the next one begins, and each change
takes something out or puts something in. Where lines end with two characters no range ends between
them in the old text, and no text that is put in ends between them in the new one. Where the texts
that are put in come to stand is read off the changes alone.
-/

namespace GhostText

namespace Diff

variable {b : LineBreak} {old new : Text}

/-- Where changes stand: the stretches of the old text that they are about, and the stretches that
their texts make up once all changes are made. What is kept between two of them is as long before as
after; `o` and `n` are where it begins. -/
def places (eol old : Text) : (o n : Nat) → List TextChange → List Span
  | _, _, [] => []
  | o, n, c :: cs =>
    let s := c.splice eol old
    let start := n + (s.start - o)
    let stop := start + c.text.length
    ⟨s.start, s.stop, start, stop⟩ :: places eol old s.stop stop cs

/-- The stretches that changes were made from are the places where they stand. -/
theorem Follows.places_change {o n : Nat} {ss : List Span} (h : Follows old new o n ss)
    (hw : b = .crlf → ∀ s ∈ ss, Whole old new s) :
    places b.text old o n (ss.map (Span.change b.text old new)) = ss := by
  induction ss generalizing o n with
  | nil => rfl
  | cons s rest ih =>
    have hle := h.start_le s List.mem_cons_self
    have hs := splice_change (b := b) rfl hle.2.1 hle.2.2 fun hb => hw hb s List.mem_cons_self
    obtain ⟨h₁, h₂, h₃, h₄⟩ := h
    have hkept := h₁.le
    have hlen := h₁.length
    have hstart : n + (s.oldStart - o) = s.newStart := by omega
    have hstop : s.newStart + (Text.slice new s.newStart s.newStop).length = s.newStop := by
      rw [Text.slice, List.length_drop, List.length_take_of_le h₄.le.2]
      omega
    have hrest := ih h₄ fun hb r hr => hw hb r (List.mem_cons_of_mem s hr)
    simp only [List.map_cons, places, hs]
    simp only [Span.splice, Span.change, hstart, hstop]
    rw [hrest]

/-- The changes of a script stand where its stretches are. -/
theorem Script.places_change {ss : List Span} (h : Script b old new ss) :
    places b.text old 0 0 (ss.map (Span.change b.text old new)) = ss :=
  h.follows.places_change h.whole

theorem Script.range_le {ss : List Span} (h : Script b old new ss) {s : Span} (hs : s ∈ ss) :
    (Span.change b.text old new s).range.start ≤ (Span.change b.text old new s).range.stop := by
  have hle := h.follows.start_le s hs
  exact Text.positionAt_mono hle.2.1 hle.2.2

/-- Between two changes of a script something is kept. -/
theorem Script.separated {ss : List Span} (h : Script b old new ss) :
    (ss.map (Span.change b.text old new)).Pairwise
      fun c d => c.range.stop < d.range.start := by
  rw [List.pairwise_map]
  refine (h.follows.pairwise h.apart).imp_of_mem ?_
  intro s r _ hr hsr
  have hle := h.follows.start_le r hr
  exact Text.positionAt_lt hsr (hle.2.1.trans hle.2.2)

/-- A change of a script has an effect. -/
theorem Script.changes_something {ss : List Span} (h : Script b old new ss) {s : Span}
    (hs : s ∈ ss) :
    (Span.change b.text old new s).range.start ≠ (Span.change b.text old new s).range.stop ∨
      (Span.change b.text old new s).text ≠ [] := by
  have hle := h.follows.start_le s hs
  have hend := h.follows.new_le s hs
  rcases h.effective s hs with hlt | hlt
  · exact .inl (Text.positionAt_lt hlt hle.2.2).ne
  · refine .inr (List.length_pos_iff.1 ?_)
    rw [Span.change, Text.slice, List.length_drop, List.length_take_of_le hend]
    omega

/-- No end of a range lies between the two characters of a line break. -/
theorem Script.not_between {ss : List Span} (h : Script .crlf old new ss) {s : Span} (hs : s ∈ ss)
    {i : Nat} (hi : splitsBreak old i = true) :
    Text.positionAt LineBreak.crlf.text old i ≠
        (Span.change LineBreak.crlf.text old new s).range.start ∧
      Text.positionAt LineBreak.crlf.text old i ≠
        (Span.change LineBreak.crlf.text old new s).range.stop := by
  have hle := h.follows.start_le s hs
  have hw := h.whole rfl s hs
  have hin : i ≤ old.length :=
    Nat.le_of_lt (List.getElem?_eq_some_iff.1 ((splitsBreak_iff old i).1 hi).2.2).1
  constructor
  · intro he
    rw [Text.positionAt_inj hin (hle.2.1.trans hle.2.2) he, hw.oldStart] at hi
    cases hi
  · intro he
    rw [Text.positionAt_inj hin hle.2.2 he, hw.oldStop] at hi
    cases hi

/-- The changes between two texts ascend and are strictly apart from each other, and none of them is
idle. Each takes the text it puts in from where that stands in the new text. Where lines end with
two characters, no range and no text that is put in begins or ends between them. -/
theorem separated_changesAt (b : LineBreak) (old new : Text) (hint : Option CaretHint) :
    ∃ cs, changesAt b.text old new (hint.map CaretHint.unchecked) = .ok cs ∧
      cs.Pairwise (fun c d => c.range.stop < d.range.start) ∧
      (∀ c ∈ cs, c.range.start ≤ c.range.stop ∧ (c.range.start ≠ c.range.stop ∨ c.text ≠ [])) ∧
      (places b.text old 0 0 cs).map (Span.change b.text old new) = cs ∧
      (b = .crlf →
        (∀ c ∈ cs, ∀ i, splitsBreak old i = true →
          Text.positionAt b.text old i ≠ c.range.start ∧
          Text.positionAt b.text old i ≠ c.range.stop) ∧
        ∀ s ∈ places b.text old 0 0 cs,
          splitsBreak new s.newStart = false ∧ splitsBreak new s.newStop = false) := by
  obtain ⟨caret, hc⟩ := changesAt_eq b old new hint
  refine ⟨_, hc, ?_⟩
  rcases changes_eq b old new caret with ⟨rfl, he⟩ | ⟨ss, hs, he⟩
  · rw [he]
    simp [places]
  · rw [he, hs.places_change]
    refine ⟨hs.separated, List.forall_mem_map.2 fun s hm =>
      ⟨hs.range_le hm, hs.changes_something hm⟩, rfl, ?_⟩
    rintro rfl
    exact ⟨List.forall_mem_map.2 fun s hm i hi => hs.not_between hm hi,
      fun s hm => ⟨(hs.whole rfl s hm).newStart, (hs.whole rfl s hm).newStop⟩⟩

/-- The carriage return of a line break is taken out, and its line feed is put in again. -/
theorem separated_changesAt_half_break :
    ∃ cs, changesAt LineBreak.crlf.text "ab\r\ncd".toList "ab\ncd".toList none = .ok cs ∧
      cs = [⟨⟨⟨0, 2⟩, ⟨1, 0⟩⟩, ['\n']⟩] ∧
      ∀ c ∈ cs, Text.positionAt LineBreak.crlf.text "ab\r\ncd".toList 3 ≠ c.range.stop := by
  obtain ⟨cs, hc, -, -, -, hwhole⟩ :=
    separated_changesAt .crlf "ab\r\ncd".toList "ab\ncd".toList none
  refine ⟨cs, hc, Except.ok.inj (hc.symm.trans rfl), fun c hm => ?_⟩
  exact ((hwhole rfl).1 c hm 3 (by decide)).2

end Diff

end GhostText
