import GhostText.Proofs.Document.Patch

/-!
# Readers with other line ends

A reader may take a line feed, a carriage return and the two together each for the end of a line,
whatever the document is kept with. A position is read by it as it was written if, and only if, the
text before it has no other line ends than those the writer counted. Changes whose ends all stand
behind such texts lead that reader, too, from the old text to the new one.
-/

namespace GhostText

namespace Text

variable {b : LineBreak}

/-- The offset of a position for a reader to whom a line feed, a carriage return and the two
together each end a line. A column beyond the end of its line stands for that end, and a line beyond
the last one for the end of the text. -/
def readAt : Text → (line character : Nat) → Nat
  | [], _, _ => 0
  | '\r' :: '\n' :: _, 0, _ => 0
  | '\r' :: '\n' :: t, line + 1, n => readAt t line n + 2
  | c :: t, 0, n =>
    if c = '\r' ∨ c = '\n' ∨ n < charUnits c then 0 else readAt t 0 (n - charUnits c) + 1
  | c :: t, line + 1, n =>
    if c = '\r' ∨ c = '\n' then readAt t line n + 1 else readAt t (line + 1) n + 1

/-- Whether the line ends of a text, as such a reader finds them, are those of a document kept with
`b`: every carriage return has its line feed, and where lines end with both so has every line feed
its carriage return. -/
def endsAlike (b : LineBreak) : Text → Bool
  | [] => true
  | '\r' :: '\n' :: t => endsAlike b t
  | c :: t => c ≠ '\r' && (c ≠ '\n' || b = .lf) && endsAlike b t

theorem readAt_pair_zero (t : Text) (n : Nat) : readAt ('\r' :: '\n' :: t) 0 n = 0 := by
  simp [readAt]

/-- Every reader takes the two together for one end of a line. -/
theorem readAt_pair_succ (t : Text) (line n : Nat) :
    readAt ('\r' :: '\n' :: t) (line + 1) n = readAt t line n + 2 := by
  simp [readAt]

theorem not_pair {c : Char} {t : Text} (h : ¬ LineBreak.crlf.text <+: c :: t) (t' : Text)
    (hc : c = '\r') : t ≠ '\n' :: t' := by
  rintro rfl
  exact h ⟨t', by simp [hc]⟩

theorem readAt_single_zero {c : Char} {t : Text} (h : ¬ LineBreak.crlf.text <+: c :: t) (n : Nat) :
    readAt (c :: t) 0 n =
      if c = '\r' ∨ c = '\n' ∨ n < charUnits c then 0 else readAt t 0 (n - charUnits c) + 1 := by
  rw [readAt]
  exact not_pair h

/-- A reader takes each of the two alone for the end of a line as well. -/
theorem readAt_single_succ {c : Char} {t : Text} (h : ¬ LineBreak.crlf.text <+: c :: t)
    (line n : Nat) : readAt (c :: t) (line + 1) n =
      if c = '\r' ∨ c = '\n' then readAt t line n + 1 else readAt t (line + 1) n + 1 := by
  rw [readAt]
  exact not_pair h

/-- One more character before it makes a difference for a reader if it ends a line there that the
writer does not count. -/
theorem endsAlike_single {c : Char} {t : Text} (h : ¬ LineBreak.crlf.text <+: c :: t) :
    endsAlike b (c :: t) = (c ≠ '\r' && (c ≠ '\n' || b = .lf) && endsAlike b t) := by
  rw [endsAlike]
  exact not_pair h

theorem not_crlf_of_ne {c : Char} (hc : c ≠ '\r') (t : Text) : ¬ LineBreak.crlf.text <+: c :: t :=
  fun h => hc (List.cons_prefix_cons.1 h).1.symm

theorem not_break_of_ne {c : Char} (hr : c ≠ '\r') (hn : c ≠ '\n') (t : Text) :
    ¬ b.text <+: c :: t := by
  cases b with
  | lf => exact fun h => hn (List.cons_prefix_cons.1 h).1.symm
  | crlf => exact not_crlf_of_ne hr t

@[simp] theorem readAt_zero (t : Text) : readAt t 0 0 = 0 := by
  induction t using breakInduction .crlf with
  | nil => rfl
  | break_ t _ => exact readAt_pair_zero t 0
  | char c t h _ =>
    rw [readAt_single_zero h, if_pos]
    exact Or.inr (Or.inr (charUnits_pos c))

/-- A carriage return with its line feed is a break whatever the lines of a document end with. -/
theorem endPosition_pair (b : LineBreak) (t : Text) : endPosition b.text ('\r' :: '\n' :: t) =
    ⟨(endPosition b.text t).line + 1, (endPosition b.text t).character⟩ := by
  cases b with
  | lf =>
    rw [endPosition_char (by simp)]
    exact endPosition_break (b := .lf) t ▸ rfl
  | crlf => exact endPosition_break (b := .crlf) t

/-- A character that ends no line is one character on, for writer and reader. -/
theorem readAt_endPosition_char {c : Char} (hr : c ≠ '\r') (hn : c ≠ '\n') (t v : Text) :
    readAt (c :: v) (endPosition b.text (c :: t)).line (endPosition b.text (c :: t)).character =
      readAt v (endPosition b.text t).line (endPosition b.text t).character + 1 := by
  rw [endPosition_char (not_break_of_ne hr hn t)]
  generalize endPosition b.text t = p
  obtain ⟨line, n⟩ := p
  cases line with
  | zero =>
    have hlt : ¬ (c = '\r' ∨ c = '\n' ∨ charUnits c + n < charUnits c) := by simp [hr, hn]
    simp only [if_true, readAt_single_zero (not_crlf_of_ne hr v), if_neg hlt,
      Nat.add_sub_cancel_left]
  | succ line =>
    simp only [Nat.succ_ne_zero, if_false, readAt_single_succ (not_crlf_of_ne hr v),
      if_neg (not_or.2 ⟨hr, hn⟩)]

theorem endPosition_lineFeed (t : Text) : endPosition LineBreak.lf.text ('\n' :: t) =
    ⟨(endPosition LineBreak.lf.text t).line + 1, (endPosition LineBreak.lf.text t).character⟩ :=
  endPosition_break (b := .lf) t

theorem readAt_lineFeed_succ (t : Text) (line n : Nat) :
    readAt ('\n' :: t) (line + 1) n = readAt t line n + 1 := by
  rw [readAt_single_succ (not_crlf_of_ne (by decide) t), if_pos (Or.inr rfl)]

/-- A text whose line ends are the writer's is read up to its end, whatever is behind it. -/
theorem readAt_append {t : Text} (h : endsAlike b t = true) (u : Text) :
    readAt (t ++ u) (endPosition b.text t).line (endPosition b.text t).character = t.length := by
  induction t using breakInduction .crlf with
  | nil => simp
  | break_ t ih =>
    have ht : endsAlike b t = true := by simpa [endsAlike] using h
    simpa [endPosition_pair, readAt_pair_succ] using ih ht
  | char c t hc ih =>
    rw [endsAlike_single hc] at h
    obtain ⟨⟨hr, hn⟩, ht⟩ : (c ≠ '\r' ∧ (c ≠ '\n' ∨ b = .lf)) ∧ endsAlike b t = true := by
      simpa using h
    by_cases hlf : c = '\n'
    · -- a line feed that stands alone is a break of the writer's, too
      obtain rfl : b = .lf := hn.resolve_left (· hlf)
      rw [hlf, List.cons_append, endPosition_lineFeed, readAt_lineFeed_succ, ih ht,
        List.length_cons]
    · rw [List.cons_append, readAt_endPosition_char hr hlf, ih ht, List.length_cons]

/-- What a single character may be: a line end to both, one to the reader alone, or none. -/
theorem lineEnd_cases (b : LineBreak) (c : Char) :
    (c = '\n' ∧ b = .lf) ∨ (c = '\r' ∨ c = '\n' ∧ b = .crlf) ∨ c ≠ '\r' ∧ c ≠ '\n' := by
  by_cases hr : c = '\r' <;> by_cases hn : c = '\n' <;> cases b <;> simp [hr, hn]

/-- A line end that the writer does not count widens the line it stands in. -/
theorem endPosition_stray {c : Char} (hc : c = '\r' ∨ c = '\n' ∧ b = .crlf) {t : Text}
    (h : ¬ LineBreak.crlf.text <+: c :: t) : endPosition b.text (c :: t) =
      if (endPosition b.text t).line = 0 then ⟨0, charUnits c + (endPosition b.text t).character⟩
      else endPosition b.text t := by
  refine endPosition_char ?_
  rcases hc with rfl | ⟨rfl, rfl⟩
  · cases b with
    | lf => simp
    | crlf => exact h
  · exact h

theorem readAt_stray_zero {c : Char} (hc : c = '\r' ∨ c = '\n') (v : Text) (n : Nat) :
    readAt (c :: v) 0 n = 0 := by
  by_cases h : LineBreak.crlf.text <+: c :: v
  · obtain ⟨rest, hv⟩ := h
    rw [← hv]
    exact readAt_pair_zero rest n
  · rw [readAt_single_zero h, if_pos (hc.imp_right Or.inl)]

/-- A stray end of a line makes the reader count one line more. -/
theorem readAt_stray_succ {c : Char} (hc : c = '\r' ∨ c = '\n') {t : Text}
    (h : ¬ LineBreak.crlf.text <+: c :: t) (ht : t ≠ []) (u : Text) (line n : Nat) :
    readAt (c :: (t ++ u)) (line + 1) n = readAt (t ++ u) line n + 1 := by
  have hv : ¬ LineBreak.crlf.text <+: c :: (t ++ u) := by
    obtain ⟨d, t, rfl⟩ := List.exists_cons_of_ne_nil ht
    intro hp
    obtain ⟨hr, hp⟩ := List.cons_prefix_cons.1 hp
    obtain ⟨hn, -⟩ := List.cons_prefix_cons.1 hp
    exact h (List.cons_prefix_cons.2 ⟨hr, List.cons_prefix_cons.2 ⟨hn, List.nil_prefix⟩⟩)
  rw [readAt_single_succ hv, if_pos hc]

/-- Every line above the one a text ends in, as the writer counts, ends for the reader inside that
text. -/
theorem readAt_lt {t : Text} {line : Nat} (h : line < (endPosition b.text t).line) (u : Text)
    (n : Nat) : readAt (t ++ u) line n < t.length := by
  induction t using breakInduction .crlf generalizing line n with
  | nil => simp at h
  | break_ t ih =>
    cases line with
    | zero => simp [readAt_pair_zero]
    | succ line =>
      have ht : line < (endPosition b.text t).line := by
        simpa [endPosition_pair] using h
      simpa [readAt_pair_succ] using ih ht n
  | char c t hc ih =>
    rw [List.cons_append, List.length_cons]
    rcases lineEnd_cases b c with ⟨rfl, rfl⟩ | hs | ⟨hr, hn⟩
    · cases line with
      | zero => simp [readAt_stray_zero]
      | succ line =>
        rw [endPosition_lineFeed] at h
        rw [readAt_lineFeed_succ]
        exact Nat.succ_lt_succ (ih (Nat.lt_of_succ_lt_succ h) n)
    · have hend : c = '\r' ∨ c = '\n' := hs.imp_right And.left
      rw [endPosition_stray hs hc] at h
      split at h
      · exact absurd h (Nat.not_lt_zero line)
      · cases line with
        | zero => simp [readAt_stray_zero hend]
        | succ line =>
          have ht : t ≠ [] := by rintro rfl; simp at h
          rw [readAt_stray_succ hend hc ht]
          exact Nat.succ_lt_succ (ih (Nat.lt_of_succ_lt h) n)
    · have hline : (endPosition b.text (c :: t)).line = (endPosition b.text t).line := by
        rw [endPosition_char (not_break_of_ne hr hn t)]
        split
        · next hz => exact hz.symm
        · rfl
      rw [hline] at h
      cases line with
      | zero =>
        rw [readAt_single_zero (not_crlf_of_ne hr _)]
        split
        · exact Nat.succ_pos _
        · exact Nat.succ_lt_succ (ih h _)
      | succ line =>
        rw [readAt_single_succ (not_crlf_of_ne hr _), if_neg (not_or.2 ⟨hr, hn⟩)]
        exact Nat.succ_lt_succ (ih h n)

/-- A text is read up to its end only if its line ends are the writer's. -/
theorem endsAlike_of_readAt {t u : Text} (h : readAt (t ++ u) (endPosition b.text t).line
    (endPosition b.text t).character = t.length) : endsAlike b t = true := by
  induction t using breakInduction .crlf with
  | nil => rfl
  | break_ t ih =>
    have ht : endsAlike b t = true := by
      apply ih
      simpa [endPosition_pair, readAt_pair_succ] using h
    simpa [endsAlike] using ht
  | char c t hc ih =>
    rw [List.cons_append, List.length_cons] at h
    rw [endsAlike_single hc]
    rcases lineEnd_cases b c with ⟨rfl, rfl⟩ | hs | ⟨hr, hn⟩
    · rw [endPosition_lineFeed, readAt_lineFeed_succ] at h
      simp [ih (Nat.succ.inj h)]
    · have hend : c = '\r' ∨ c = '\n' := hs.imp_right And.left
      rw [endPosition_stray hs hc] at h
      split at h
      · rw [readAt_stray_zero hend] at h
        exact absurd h (Nat.succ_ne_zero _).symm
      · next hz =>
        obtain ⟨line, hl⟩ := Nat.exists_eq_succ_of_ne_zero hz
        have ht : t ≠ [] := by rintro rfl; simp at hz
        have hbelow : line < (endPosition b.text t).line := by omega
        have hlt := readAt_lt hbelow u (endPosition b.text t).character
        rw [hl, readAt_stray_succ hend hc ht] at h
        omega
    · rw [readAt_endPosition_char hr hn] at h
      simp [hr, hn, ih (Nat.succ.inj h)]

/-- The position of an offset is read as that offset exactly where the text before it has the
writer's line ends. -/
theorem readAt_positionAt_iff {t : Text} {i : Nat} (hi : i ≤ t.length) :
    readAt t (positionAt b.text t i).line (positionAt b.text t i).character = i ↔
      endsAlike b (t.take i) = true := by
  have hl : (t.take i).length = i := by rw [List.length_take, Nat.min_eq_left hi]
  have hsplit : readAt t = readAt (t.take i ++ t.drop i) := by rw [List.take_append_drop]
  unfold positionAt
  rw [hsplit]
  constructor
  · intro h
    exact endsAlike_of_readAt (h.trans hl.symm)
  · intro h
    rw [readAt_append h, hl]

/-- Only the text before an offset counts. -/
theorem readAt_positionAt {document t : Text} {i : Nat} (hd : document.take i = t.take i)
    (hi : i ≤ t.length) (h : endsAlike b (t.take i) = true) :
    readAt document (positionAt b.text t i).line (positionAt b.text t i).character = i := by
  have hlen : i ≤ document.length := by
    have hl := congrArg List.length hd
    rw [List.length_take, List.length_take] at hl
    omega
  rw [← positionAt_congr hd, readAt_positionAt_iff hlen, hd, h]

/-- Whether all line breaks of a text are the ones it is kept with. -/
def unmixed (b : LineBreak) (t : Text) : Bool :=
  match b with
  | .lf => '\r' ∉ t
  | .crlf => endsAlike .crlf t

theorem endsAlike_of_not_mem {t : Text} (h : '\r' ∉ t) : endsAlike .lf t = true := by
  induction t with
  | nil => rfl
  | cons c t ih =>
    obtain ⟨hr, ht⟩ := not_or.1 (List.mem_cons.not.1 h)
    rw [endsAlike_single (not_crlf_of_ne (Ne.symm hr) t)]
    simp [show c ≠ '\r' from Ne.symm hr, ih ht]

/-- A text cut between its line breaks has no others. -/
theorem endsAlike_take {t : Text} {i : Nat} (h : endsAlike .crlf t = true)
    (hi : OnBoundary .crlf t i) : endsAlike .crlf (t.take i) = true := by
  rcases Nat.le_total t.length i with hlen | hlen
  · rwa [List.take_of_length_le hlen]
  refine boundaryInduction
    (motive := fun t i => endsAlike .crlf t = true → endsAlike .crlf (t.take i) = true)
    (fun t _ => ?start) (fun t j ih ht => ?break_) (fun c t j hc ih ht => ?char) hlen hi h
  case start => simp [endsAlike]
  case break_ =>
    have he : (LineBreak.crlf.text ++ t).take (LineBreak.crlf.text.length + j) =
        LineBreak.crlf.text ++ t.take j := List.take_length_add_append j
    rw [he]
    simpa [endsAlike] using ih (by simpa [endsAlike] using ht)
  case char =>
    rw [endsAlike_single hc] at ht
    obtain ⟨hends, ht⟩ := Bool.and_eq_true_iff.1 ht
    rw [List.take_succ_cons, endsAlike_single (not_break_take hc j), hends, Bool.true_and]
    exact ih ht

/-- Where the line ends are not mixed every text before a boundary is read as it was written. -/
theorem endsAlike_take_of_unmixed {t : Text} {i : Nat} (h : unmixed b t = true)
    (hi : OnBoundary b t i) : endsAlike b (t.take i) = true := by
  cases b with
  | lf =>
    have hr : '\r' ∉ t := by simpa [unmixed] using h
    exact endsAlike_of_not_mem fun hm => hr (List.mem_of_mem_take hm)
  | crlf => exact endsAlike_take h hi

end Text

namespace Diff

variable {b : LineBreak} {old new : Text}

/-- The stretch of a document that a change is about, for a reader with three line ends. -/
def readSplice (document : Text) (c : TextChange) : Splice :=
  let o := Text.ascending
    (Text.readAt document c.range.start.line c.range.start.character)
    (Text.readAt document c.range.stop.line c.range.stop.character)
  ⟨o.1, o.2, c.text⟩

/-- Makes one entry in a document, as such a reader does. -/
def readEntry (document : Text) (entry : Json) : Except Fault Text := do
  let range ← Range.ofJson (entry.fieldD "range")
  let text := (entry.fieldD "text").textOrEmpty.toList
  return (readSplice document ⟨range, text⟩).apply document

theorem readSplice_ordered (document : Text) (p q : Position) (text : Text) :
    readSplice document ⟨Range.ordered p q, text⟩ = readSplice document ⟨⟨p, q⟩, text⟩ := by
  unfold Range.ordered
  split
  · simp only [readSplice, Text.ascending_comm]
  · rfl

/-- An entry that the program writes is one that the reader can apply. -/
theorem readEntry_toJson (document : Text) (c : TextChange) :
    readEntry document c.toJson = .ok ((readSplice document c).apply document) := by
  have hrange : c.toJson.fieldD "range" = c.range.toJson := rfl
  have htext : c.toJson.fieldD "text" = .str (String.ofList c.text) := rfl
  simp only [readEntry, hrange, htext, Range.ofJson_toJson, bind, Except.bind, pure, Except.pure,
    Json.textOrEmpty_str, String.toList_ofList, readSplice_ordered]

/-- The reader applies the entries in turn, each to what the ones before it have left. -/
theorem foldlM_readEntry (document : Text) (cs : List TextChange) :
    (inTurn cs).foldlM readEntry document =
      .ok (cs.foldr (fun c d => (readSplice d c).apply d) document) :=
  foldlM_inTurn_of_read readEntry_toJson document cs

/-- Both ends of a change stand behind texts with the writer's line ends. -/
def ReadAlike (b : LineBreak) (old : Text) (c : TextChange) : Prop :=
  Text.endsAlike b (old.take (Text.offsetAt b.text old c.range.start)) = true ∧
    Text.endsAlike b (old.take (Text.offsetAt b.text old c.range.stop)) = true

instance (b : LineBreak) (old : Text) (c : TextChange) : Decidable (ReadAlike b old c) :=
  inferInstanceAs (Decidable (_ ∧ _))

/-- The ends of a change, as offsets of the old text. -/
theorem Script.offsets {ss : List Span} (h : Script b old new ss) {s : Span} (hs : s ∈ ss) :
    Text.offsetAt b.text old (Text.positionAt b.text old s.oldStart) = s.oldStart ∧
      Text.offsetAt b.text old (Text.positionAt b.text old s.oldStop) = s.oldStop := by
  have hle := h.follows.start_le s hs
  exact ⟨Text.offsetAt_positionAt (by omega) fun hb => (h.whole hb s hs).oldStart,
    Text.offsetAt_positionAt hle.2.2 fun hb => (h.whole hb s hs).oldStop⟩

/-- A change is read where it was meant if the reader counts the lines before it as the writer
did. -/
theorem Script.readSplice_change {ss : List Span} (h : Script b old new ss) {s : Span}
    (hs : s ∈ ss) (hread : ReadAlike b old (Span.change b.text old new s)) {document : Text}
    (hd : document.take (s.oldStop + 1) = old.take (s.oldStop + 1)) :
    readSplice document (Span.change b.text old new s) = s.splice new := by
  have hle := h.follows.start_le s hs
  have htake : ∀ i, i ≤ s.oldStop + 1 → document.take i = old.take i := by
    intro i hi
    have ht := congrArg (List.take i) hd
    rwa [List.take_take, List.take_take, Nat.min_eq_left hi] at ht
  obtain ⟨hstart, hstop⟩ := hread
  simp only [Span.change, (h.offsets hs).1] at hstart
  simp only [Span.change, (h.offsets hs).2] at hstop
  have hlt : ¬ s.oldStop < s.oldStart := by omega
  simp only [readSplice, Span.change,
    Text.readAt_positionAt (htake s.oldStart (by omega)) (by omega) hstart,
    Text.readAt_positionAt (htake s.oldStop (by omega)) hle.2.2 hstop, Text.ascending, if_neg hlt,
    Span.splice]

/-- Between its line breaks a text without others can be cut anywhere. -/
theorem Script.readAlike {ss : List Span} (h : Script b old new ss)
    (hold : Text.unmixed b old = true) {s : Span} (hs : s ∈ ss) :
    ReadAlike b old (Span.change b.text old new s) := by
  obtain ⟨hstart, hstop⟩ := h.offsets hs
  simp only [ReadAlike, Span.change, hstart, hstop]
  exact ⟨Text.endsAlike_take_of_unmixed hold fun hb => (h.whole hb s hs).oldStart,
    Text.endsAlike_take_of_unmixed hold fun hb => (h.whole hb s hs).oldStop⟩

/-- A reader with three line ends that makes one entry after the other comes from the old text to
the new one, if the changes begin and end behind texts with the line ends that are counted. They do
if the old text has no others, whatever the new one has. -/
theorem foldlM_readEntry_changesAt (b : LineBreak) (old new : Text) (hint : Option CaretHint) :
    ∃ cs, changesAt b.text old new (hint.map CaretHint.unchecked) = .ok cs ∧
      ((∀ c ∈ cs, ReadAlike b old c) → (inTurn cs).foldlM readEntry old = .ok new) ∧
      (Text.unmixed b old = true → ∀ c ∈ cs, ReadAlike b old c) := by
  obtain ⟨caret, hc⟩ := changesAt_eq b old new hint
  refine ⟨_, hc, ?_⟩
  rw [foldlM_readEntry]
  rcases changes_eq b old new caret with ⟨rfl, he⟩ | ⟨ss, hs, he⟩
  · rw [he]
    exact ⟨fun _ => rfl, by simp⟩
  · rw [he]
    simp only [List.forall_mem_map]
    refine ⟨fun hread => ?_, fun hold s hm => hs.readAlike hold hm⟩
    exact congrArg Except.ok
      (hs.foldr_read fun s hm d hd => hs.readSplice_change hm (hread s hm) hd)

/-- An old text with both `\r\n` and `\n`, kept with `\n`, and a new one with a lone `\r` as
well. -/
theorem foldlM_readEntry_changesAt_mixed :
    ∃ cs, changesAt LineBreak.lf.text "a\r\nb\nc".toList "a\r\nb\rd\nc".toList none = .ok cs ∧
      (inTurn cs).foldlM readEntry "a\r\nb\nc".toList = .ok "a\r\nb\rd\nc".toList := by
  obtain ⟨cs, hc, hread, -⟩ :=
    foldlM_readEntry_changesAt .lf "a\r\nb\nc".toList "a\r\nb\rd\nc".toList none
  have he : cs = [⟨⟨⟨1, 1⟩, ⟨1, 1⟩⟩, ['\r', 'd']⟩] := Except.ok.inj (hc.symm.trans rfl)
  refine ⟨cs, hc, hread ?_⟩
  rw [he]
  decide

/-- A carriage return alone is no line break to the writer, so what is written behind it goes to
the end of the reader's line before it. -/
theorem readEntry_misses_stray_return :
    ∃ cs, changesAt LineBreak.lf.text "a\rb".toList "a\rbc".toList none = .ok cs ∧
      (inTurn cs).foldlM readEntry "a\rb".toList = .ok "ac\rb".toList ∧
      "ac\rb".toList ≠ "a\rbc".toList :=
  ⟨[⟨⟨⟨0, 3⟩, ⟨0, 3⟩⟩, ['c']⟩], by rfl, by rfl, by decide⟩

end Diff

end GhostText
