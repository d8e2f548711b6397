import GhostText.Proofs.Document.Callers
import GhostText.Proofs.Document.Widening

/-!
# Changes made to the old text

The changes between two texts, made to the old one, give the new one: all at once in the coordinates
of the old text, and one after the other where each is read in the text left by those before it. No
bound on the texts is assumed, and the caret may stand anywhere or nowhere.
-/

namespace GhostText

/-- Where a caller says that the caret stands; a position may have any whole coordinates. -/
inductive CaretHint where
  | offset (n : Int)
  | position (line character : Int)
  deriving DecidableEq, Repr

def CaretHint.unchecked : CaretHint → UncheckedPosition ⊕ Int
  | .offset n => .inr n
  | .position line character => .inl ⟨.int line, .int character⟩

namespace Diff

variable {b : LineBreak} {old new : Text}

/-- Stretches that lead from one text to another, apart from each other and of whole line breaks,
each of which changes something. -/
structure Script (b : LineBreak) (old new : Text) (ss : List Span) : Prop where
  follows : Follows old new 0 0 ss
  apart : ss.IsChain Apart
  whole : b = .crlf → ∀ s ∈ ss, Whole old new s
  effective : ∀ s ∈ ss, s.Effective

/-- Stretches that are widened and joined still lead from the one text to the other. -/
theorem script_joinAll_widen {ss : List Span} (h : Follows old new 0 0 ss) (ha : ss.IsChain Apart)
    (he : ∀ s ∈ ss, s.Effective) : Script b old new (joinAll (ss.map (widen old new))) := by
  have hc : Clear 0 0 ss := fun _ _ => Or.inr ⟨rfl, rfl⟩
  have hf := follows_widen h hc ha
  have hw := h.whole_widen hc ha
  have hwide : ∀ s ∈ ss.map (widen old new), s.Effective :=
    List.forall_mem_map.2 fun s hs => effective_widen (he s hs)
  rw [pad_zero] at hf
  generalize ss.map (widen old new) = wide at hf hw hwide
  cases wide with
  | nil => exact ⟨hf, by simp, by simp, by simp⟩
  | cons s rest =>
    rw [joinAll_cons]
    rw [List.forall_mem_cons] at hw hwide
    exact ⟨follows_joinFrom hf, apart_joinFrom s rest, fun _ => whole_joinFrom hw.1 hw.2,
      effective_joinFrom hwide.1 hwide.2⟩

/-- What is to be changed leads from the old text to the new one. -/
theorem script_changedSpans (hne : old ≠ new) (b : LineBreak) (caret : Option Caret) :
    Script b old new (changedSpans b.text old new caret) := by
  have hfound : ∃ ss, Follows old new 0 0 ss ∧ ss.IsChain Apart ∧ (∀ s ∈ ss, s.Effective) ∧
      changedSpans b.text old new caret =
        if b.text = LineBreak.crlf.text then joinAll (ss.map (widen old new)) else ss := by
    unfold changedSpans
    cases hs : (caret.bind (caretOffset? b.text new)).bind (caretSpan? old new) with
    | none =>
      exact ⟨spans old new, follows_spans old new, apart_spans old new, effective_spans hne, rfl⟩
    | some s =>
      obtain ⟨n, _, hn⟩ := Option.bind_eq_some_iff.1 hs
      exact ⟨[s], follows_caretSpan hn, by simp, by simpa using effective_caretSpan hn, rfl⟩
  obtain ⟨ss, hf, ha, heff, he⟩ := hfound
  rw [he]
  cases b with
  | lf => exact ⟨hf, ha, by simp, heff⟩
  | crlf =>
    rw [if_pos rfl]
    exact script_joinAll_widen hf ha heff

/-- A change is found again in a document that agrees with the old text up to the character behind
it. -/
theorem splice_change {document : Text} {s : Span}
    (hd : document.take (s.oldStop + 1) = old.take (s.oldStop + 1))
    (hle : s.oldStart ≤ s.oldStop) (hend : s.oldStop ≤ old.length)
    (hw : b = .crlf → Whole old new s) :
    TextChange.splice b.text document (Span.change b.text old new s) = s.splice new := by
  have hback : ∀ i, i ≤ s.oldStop → Text.OnBoundary b old i →
      Text.offsetAt b.text document (Text.positionAt b.text old i) = i := by
    intro i hi hb
    have htake : ∀ j, j ≤ s.oldStop + 1 → old.take j = document.take j := by
      intro j hj
      have h := congrArg (List.take j) hd
      rw [List.take_take, List.take_take, Nat.min_eq_left hj] at h
      exact h.symm
    have hlen : i ≤ document.length := by
      have h := congrArg List.length (htake i (by omega))
      rw [List.length_take, List.length_take] at h
      omega
    rw [Text.positionAt_congr (htake i (by omega))]
    exact Text.offsetAt_positionAt hlen (hb.congr (htake (i + 1) (by omega)))
  have hstart := hback s.oldStart hle fun h => (hw h).oldStart
  have hstop := hback s.oldStop (Nat.le_refl _) fun h => (hw h).oldStop
  have hle' : ¬ s.oldStop < s.oldStart := by omega
  simp only [TextChange.splice, Span.change, hstart, hstop, Text.ascending, if_neg hle',
    Span.splice]

/-- The changes of a script, made to the old text at once. -/
theorem Script.applyAll {ss : List Span} (h : Script b old new ss) :
    TextChange.applyAll b.text old (ss.map (Span.change b.text old new)) = new := by
  have hsplices : (ss.map (Span.change b.text old new)).map (TextChange.splice b.text old) =
      ss.map (Span.splice new) := by
    rw [List.map_map]
    apply List.map_congr_left
    intro s hs
    have hle := h.follows.start_le s hs
    exact splice_change rfl hle.2.1 hle.2.2 fun hb => h.whole hb s hs
  have hd : (ss.map (Span.splice new)).Pairwise
      fun a b => (a.start, a.stop) ≠ (b.start, b.stop) := by
    rw [List.pairwise_map]
    refine (h.follows.pairwise h.apart).imp_of_mem ?_
    intro s r hs _ hsr he
    have hle := h.follows.start_le s hs
    simp only [Span.splice, Prod.mk.injEq] at he
    simp only [Apart] at hsr
    omega
  rw [TextChange.applyAll, hsplices,
    Splice.applyAll_eq_weave (List.Perm.refl _) h.follows.ascending hd, h.follows.weave]
  rfl

/-- Splices made behind an offset leave the text alone up to the character behind that offset. -/
theorem Follows.agree {o n : Nat} {ss : List Span} (h : Follows old new o n ss)
    (hc : ∀ s ∈ ss.head?, o < s.oldStart) :
    ((ss.map (Span.splice new)).foldr Splice.apply old).take (o + 1) = old.take (o + 1) := by
  cases ss with
  | nil => rfl
  | cons s rest =>
    have hlt := hc s rfl
    have hstart : s.oldStart ≤ old.length := (h.start_le s List.mem_cons_self).2.1.trans
      (h.start_le s List.mem_cons_self).2.2
    have ha : Splice.Ascending old.length s.oldStart ((s :: rest).map (Span.splice new)) :=
      ⟨Nat.le_refl _, h.ascending.2⟩
    have hlen : o + 1 ≤ (old.take s.oldStart).length := by
      rw [List.length_take]
      omega
    rw [Splice.foldr_apply ha, List.take_append_of_le_length hlen, List.take_take,
      Nat.min_eq_left (by omega)]

/-- One change after the other, the last in the text first, each read in the document it is made to,
does what the splices of the old text do, for every reader that finds a change again in a document
that agrees with the old text up to the character behind it. -/
theorem Follows.foldr_read {read : Text → TextChange → Splice} {o n : Nat} {ss : List Span}
    (h : Follows old new o n ss) (ha : ss.IsChain Apart)
    (hread : ∀ s ∈ ss, ∀ document : Text,
      document.take (s.oldStop + 1) = old.take (s.oldStop + 1) →
        read document (Span.change b.text old new s) = s.splice new) :
    (ss.map (Span.change b.text old new)).foldr
      (fun c document => (read document c).apply document) old =
    (ss.map (Span.splice new)).foldr Splice.apply old := by
  induction ss generalizing o n with
  | nil => rfl
  | cons s rest ih =>
    obtain ⟨h₁, h₂, h₃, h₄⟩ := h
    obtain ⟨hc, hrest⟩ := List.isChain_cons.1 ha
    have hrec := ih h₄ hrest fun r hr => hread r (List.mem_cons_of_mem s hr)
    simp only [List.map_cons, List.foldr_cons] at hrec ⊢
    rw [hrec, hread s List.mem_cons_self _ (h₄.agree hc)]

/-- The changes of a script, made one after the other by such a reader. -/
theorem Script.foldr_read {read : Text → TextChange → Splice} {ss : List Span}
    (h : Script b old new ss) (hread : ∀ s ∈ ss, ∀ document : Text,
      document.take (s.oldStop + 1) = old.take (s.oldStop + 1) →
        read document (Span.change b.text old new s) = s.splice new) :
    (ss.map (Span.change b.text old new)).foldr
      (fun c document => (read document c).apply document) old = new := by
  rw [h.follows.foldr_read h.apart hread, Splice.foldr_apply h.follows.ascending, h.follows.weave]
  rfl

/-- The changes of a script, made to the old text one after the other. -/
theorem Script.foldr_change {ss : List Span} (h : Script b old new ss) :
    (ss.map (Span.change b.text old new)).foldr
      (fun c document => (TextChange.splice b.text document c).apply document) old = new := by
  refine h.foldr_read fun s hs document hd => ?_
  have hle := h.follows.start_le s hs
  exact splice_change hd hle.2.1 hle.2.2 fun hb => h.whole hb s hs

/-- The changes between two texts are none, or those of a script. -/
theorem changes_eq (b : LineBreak) (old new : Text) (caret : Option Caret) :
    old = new ∧ changes b.text old new caret = [] ∨
      ∃ ss, Script b old new ss ∧
        changes b.text old new caret = ss.map (Span.change b.text old new) := by
  unfold changes
  by_cases h : old = new
  · exact Or.inl ⟨h, if_pos h⟩
  · exact Or.inr ⟨_, script_changedSpans h b caret, if_neg h⟩

/-- The changes between two texts, made at once. -/
theorem applyAll_changes (b : LineBreak) (old new : Text) (caret : Option Caret) :
    TextChange.applyAll b.text old (changes b.text old new caret) = new := by
  rcases changes_eq b old new caret with ⟨rfl, he⟩ | ⟨ss, hs, he⟩
  · rw [he]
    simp [TextChange.applyAll, Splice.applyAll]
  · rw [he, hs.applyAll]

/-- A hint with whole coordinates is a caret. -/
theorem changesAt_eq (b : LineBreak) (old new : Text) (hint : Option CaretHint) :
    ∃ caret, changesAt b.text old new (hint.map CaretHint.unchecked) =
      .ok (changes b.text old new caret) := by
  unfold changesAt
  by_cases h : old = new
  · exact ⟨none, by simp [h, changes]⟩
  · rw [if_neg h]
    match hint with
    | none => exact ⟨none, rfl⟩
    | some (.offset n) => exact ⟨some (.offset n), rfl⟩
    | some (.position line character) =>
      refine ⟨some (.offset (Text.offsetAt b.text new ⟨line.toNat, character.toNat⟩)), ?_⟩
      simp only [Option.map_some, CaretHint.unchecked, UncheckedPosition.offset_int, bind,
        Except.bind, pure, Except.pure]

/-- The changes between two texts, handed over as they are and made to the old one, give the new
one. -/
theorem applyAll_changesAt (b : LineBreak) (old new : Text) (hint : Option CaretHint) :
    ∃ cs, changesAt b.text old new (hint.map CaretHint.unchecked) = .ok cs ∧
      EditItem.applyAll b.text old (cs.map EditItem.ofChange) = .ok new := by
  obtain ⟨caret, hc⟩ := changesAt_eq b old new hint
  refine ⟨_, hc, ?_⟩
  have hd : List.Forall₂ EditItem.Describes
      ((changes b.text old new caret).map EditItem.ofChange) (changes b.text old new caret) := by
    rw [List.forall₂_map_left_iff, List.forall₂_same]
    exact fun c _ => EditItem.describes_ofChange c
  rw [EditItem.applyAll_of_describes hd, applyAll_changes]

/-- A single change, written as a value, made to a document. -/
theorem applyAll_single (document : Text) (c : TextChange) :
    EditItem.applyAll b.text document [.value c.toJson] =
      .ok ((TextChange.splice b.text document c).apply document) := by
  rw [EditItem.applyAll_of_describes (.cons (EditItem.describes_toJson c) .nil)]
  simp [TextChange.applyAll, Splice.applyAll]

/-- A reader that can read every change makes them from the last to the first. -/
theorem foldlM_inTurn_of_read {read : Text → Json → Except Fault Text}
    {make : TextChange → Text → Text} (h : ∀ d c, read d c.toJson = .ok (make c d))
    (document : Text) (cs : List TextChange) :
    (inTurn cs).foldlM read document = .ok (cs.foldr make document) := by
  induction cs with
  | nil => rfl
  | cons c cs ih =>
    unfold inTurn at ih ⊢
    rw [List.reverse_cons, List.map_append, List.foldlM_append, ih]
    simp only [List.map_cons, List.map_nil, List.foldlM_cons, List.foldlM_nil, bind, Except.bind, h,
      pure, Except.pure, List.foldr_cons]

/-- Changes written as values are made without a fault, from the last to the first. -/
theorem foldlM_inTurn (document : Text) (cs : List TextChange) :
    (inTurn cs).foldlM (fun d entry => EditItem.applyAll b.text d [.value entry]) document =
      .ok (cs.foldr (fun c d => (TextChange.splice b.text d c).apply d) document) :=
  foldlM_inTurn_of_read applyAll_single document cs

/-- A reader that makes one entry after the other, each in the document left by those before it,
comes from the old text to the new one. -/
theorem inTurn_changesAt (b : LineBreak) (old new : Text) (hint : Option CaretHint) :
    ∃ cs, changesAt b.text old new (hint.map CaretHint.unchecked) = .ok cs ∧
      (inTurn cs).foldlM (fun d entry => EditItem.applyAll b.text d [.value entry]) old =
        .ok new := by
  obtain ⟨caret, hc⟩ := changesAt_eq b old new hint
  refine ⟨_, hc, ?_⟩
  rw [foldlM_inTurn]
  rcases changes_eq b old new caret with ⟨rfl, he⟩ | ⟨ss, hs, he⟩
  · rw [he]
    rfl
  · rw [he, hs.foldr_change]

end Diff

end GhostText
