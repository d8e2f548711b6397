import GhostText.Proofs.Json.Line
import GhostText.Proofs.Json.RoundTrip
import GhostText.Proofs.Wire.Lines

/-!
# Behind a header without a length

A header without a usable length is passed over, and what is behind it is taken for the next header.
If that is the body that was meant, its lines are no length, but its last line is put before the
header of the next frame. Only where the last line is blank is that header still found; else its
body is taken for a header in turn, and so is every one after it.
-/

namespace GhostText.Frame

open Json (Gap Opens Tidy AfterReturns isSpace)

/-! ## The header behind a body -/

/-- Nothing but blanks stands behind the last line break of a text, or in it if it has none. -/
def EndsBlank (cs : Text) : Prop := Gap ((Text.pieces LineBreak.crlf.text cs).getLastD [])

instance : DecidablePred EndsBlank := fun _ => List.decidableBAll _ _

section Border

variable {cs : Text} {n : Nat}

/-- The lines of a text laid out like a value with a header behind it. -/
theorem linesOf_border (hs : Tidy cs) (h : AfterReturns Tidy cs) (n : Nat) :
    ∃ before last, linesOf (Text.Utf8.encode (cs ++ header n)) = before ++ [last ++ header n] ∧
      (∀ line ∈ before, ¬ NamesLength line) ∧ (EndsBlank cs → Gap last) ∧
      (¬ EndsBlank cs → Opens last) := by
  have hh : ∀ c ∈ header n, c.toNat < 0x80 ∧ c ≠ '\r' := by
    rw [header_eq]
    exact fun c => field_ascii fun c => Text.isDigit_of_mem_toDigits
  have he : ascii (cs ++ header n) = ascii cs ++ header n := by
    have hf : ascii (header n) = header n :=
      List.filter_eq_self.2 fun c hc => by simpa using (hh c hc).1
    rw [ascii, List.filter_append]
    exact congrArg (ascii cs ++ ·) hf
  obtain ⟨before, last, ha, ht⟩ := Text.pieces_append (fun hm => (hh _ hm).2 rfl)
    (by rw [header_eq]; simp) (ascii cs)
  rw [pieces_ascii h] at ha
  obtain ⟨before, lines, hl, rfl, hlast⟩ := List.map_eq_append_iff.1 ha
  obtain ⟨line, rfl, rfl⟩ := List.map_eq_singleton_iff.1 hlast
  have htidy : ∀ line ∈ Text.pieces LineBreak.crlf.text cs, Tidy line := fun line hm =>
    tidy_of_mem_pieces hs h hm
  have hend : EndsBlank cs ↔ Gap line := by
    rw [EndsBlank, hl]
    simp
  refine ⟨before.map ascii, ascii line, ?_, ?_, ?_, ?_⟩
  · rw [linesOf_encode, he, ht]
  · rw [List.forall_mem_map]
    exact fun l hm => not_namesLength (tidy_ascii (htidy l (hl ▸ List.mem_append_left _ hm)))
  · intro hb
    rw [ascii_gap (hend.1 hb)]
    exact hend.1 hb
  · intro hb
    have hline := htidy line (hl ▸ List.mem_append_right _ List.mem_cons_self)
    exact opens_ascii (hline.resolve_left fun hg => hb (hend.2 hg))

/-- Behind a blank line a header is found. -/
theorem contentLength?_border (hs : Tidy cs) (h : AfterReturns Tidy cs) (hb : EndsBlank cs)
    (hn : (Nat.toDigits 10 n).length ≤ Text.digitLimit) :
    contentLength? (Text.Utf8.encode (cs ++ header n)) = some n := by
  obtain ⟨before, last, hl, hbefore, hgap, -⟩ := linesOf_border hs h n
  apply contentLength?_announces
  refine ⟨before, last ++ "Content-Length".toList, ' ' :: Nat.toDigits 10 n, [], 0, ?_, hbefore,
    ?_, ?_, ?_, by rwa [Nat.zero_add]⟩
  · rw [hl, header_eq, List.append_assoc]
  · rw [List.mem_append, not_or]
    refine ⟨fun hm => absurd (hgap hb ':' hm) (by decide), by simp⟩
  · have ht : Text.trimLeft Text.isBlank (last ++ "Content-Length".toList) =
        "Content-Length".toList := by
      rw [Text.trimLeft,
        List.dropWhile_append_of_pos fun c hc => isBlank_of_isSpace (hgap hb c hc)]
      decide
    rw [Text.trim, String.toList_ofList, Text.trimClass, ht]
    decide +kernel
  · rw [List.replicate_zero, List.nil_append]
    exact trim_digits fun c => Text.isDigit_of_mem_toDigits

/-- Behind a line that is not blank no header is found. -/
theorem contentLength?_glued (hs : Tidy cs) (h : AfterReturns Tidy cs) (hb : ¬ EndsBlank cs)
    (n : Nat) : contentLength? (Text.Utf8.encode (cs ++ header n)) = none := by
  obtain ⟨before, last, hl, hbefore, -, hopens⟩ := linesOf_border hs h n
  have hlast := not_namesLength (.inr ((hopens hb).append (header n)))
  rw [contentLength?_eq, hl, lengthIn_others hbefore, lengthIn_other hlast]
  rfl

end Border

/-! ## Taking headers one after another -/

/-- No end of a header begins in some bytes or in the header behind them. -/
theorem not_infix_border {bytes : Bytes} {n : Nat} (h : ¬ separator <:+: bytes) :
    ¬ separator <:+: bytes ++ Text.Utf8.encode (header n) ++ [13, 10, 13] := by
  have hn := not_mem_header n
  obtain ⟨tail, ht⟩ : ∃ tail, Text.Utf8.encode (header n) = 67 :: tail := ⟨_, rfl⟩
  rw [ht] at hn ⊢
  induction bytes with
  | nil => exact not_infix_of_not_mem hn
  | cons b bytes ih =>
    rw [List.infix_cons_iff, not_or] at h
    rw [List.cons_append, List.cons_append, List.infix_cons_iff, not_or]
    refine ⟨fun hp => ?_, ih h.2⟩
    -- The first byte of the header is none of an end, and no end is shorter than four bytes.
    match bytes with
    | [] => simp [separator] at hp
    | [x] => simp [separator] at hp
    | [x, y] => simp [separator] at hp
    | x :: y :: z :: bytes =>
      rw [List.append_assoc, ← List.cons_append] at hp
      exact h.1 ((List.isPrefix_append_of_length (by simp [separator])).1 hp)

/-- The bytes of an end of a header are two line breaks of the text. -/
theorem encode_eq_append_separator {cs : Text} {head rest : Bytes}
    (h : Text.Utf8.encode cs = head ++ separator ++ rest) :
    ∃ before after, cs = before ++ (LineBreak.crlf.text ++ (LineBreak.crlf.text ++ after)) ∧
      Text.Utf8.encode before = head ∧ Text.Utf8.encode after = rest := by
  rw [List.append_assoc] at h
  obtain ⟨before, t₁, rfl, hb, h₁⟩ := Text.Utf8.encode_eq_append_cons h (by decide)
  obtain ⟨t₂, rfl, h₂⟩ := Text.Utf8.encode_eq_cons h₁ (by decide)
  obtain ⟨t₃, rfl, h₃⟩ := Text.Utf8.encode_eq_cons h₂ (by decide)
  obtain ⟨t₄, rfl, h₄⟩ := Text.Utf8.encode_eq_cons h₃ (by decide)
  exact ⟨before, t₄, rfl, hb, h₄⟩

/-- The ends of a header in a text laid out like a value are passed over one after another; what is
left ends as the text does. -/
theorem drain_laid {cs : Text} (hs : Tidy cs) (h : AfterReturns Tidy cs) :
    ∃ rest, Tidy rest ∧ AfterReturns Tidy rest ∧ (EndsBlank rest ↔ EndsBlank cs) ∧
      (¬ separator <:+: Text.Utf8.encode rest) ∧
      ∀ more, (drain (Text.Utf8.encode cs ++ more) none).bodies =
        (drain (Text.Utf8.encode rest ++ more) none).bodies := by
  induction hn : cs.length using Nat.strongRecOn generalizing cs with
  | ind n ih =>
    cases hsplit : splitHeader (Text.Utf8.encode cs) with
    | none => exact ⟨cs, hs, h, .rfl, (splitHeader_eq_none_iff _).1 hsplit, fun _ => rfl⟩
    | some parts =>
      obtain ⟨before, after, rfl, hb, ha⟩ :=
        encode_eq_append_separator (eq_append_of_splitHeader hsplit)
      have hbreaks := afterReturns_of_append h
      have hafter : Tidy after := tidy_of_cons rfl (hbreaks.2.2.1 rfl)
      have hlast : EndsBlank after ↔
          EndsBlank (before ++ (LineBreak.crlf.text ++ (LineBreak.crlf.text ++ after))) := by
        obtain ⟨l, ls, hl⟩ := Text.pieces_eq_cons LineBreak.crlf.text after
        have hne : (l :: ls).getLast? = some ((l :: ls).getLast (List.cons_ne_nil l ls)) :=
          List.getLast?_eq_some_getLast _
        rw [EndsBlank, EndsBlank, Text.pieces_append_break, Text.pieces_break, hl]
        simp [hne]
      obtain ⟨rest, hrest, hr, he, hi, hd⟩ := ih after.length
        (by simp only [List.length_append, LineBreak.text_crlf, List.length_cons] at hn; omega)
        hafter (afterReturns_of_append (afterReturns_of_append hbreaks)) rfl
      refine ⟨rest, hrest, hr, he.trans hlast, hi, fun more => ?_⟩
      have hnone := contentLength?_tidy (tidy_of_append hs) (afterReturns_left h)
      rw [hb] at hnone
      rw [drain_skip (splitHeader_append hsplit more) hnone, ← hd, ha]

/-- A value on one line is laid out like a value, and its line is not blank. -/
theorem laid_write (fields : Fields) :
    let cs := Json.write .tight (.obj fields)
    Opens cs ∧ AfterReturns Tidy cs ∧ ¬ EndsBlank cs := by
  intro cs
  have hr : '\r' ∉ cs := Json.not_mem_write (.obj fields)
  have hopens : Opens cs := ⟨[], cs, rfl, Json.gap_nil, '{', _, rfl, rfl⟩
  refine ⟨hopens, Json.afterReturns_of_not_mem hr, fun hb => ?_⟩
  have hp : Text.pieces LineBreak.crlf.text cs = [cs] :=
    Text.pieces_eq_singleton fun hi => hr (hi.subset List.mem_cons_self)
  rw [EndsBlank, hp] at hb
  exact absurd (hb '{' List.mem_cons_self) (by decide)

/-- The next end of a header behind a text is the one in the frame behind it. -/
theorem splitHeader_border {cs : Text} (h : ¬ separator <:+: Text.Utf8.encode cs)
    (body more : Bytes) : splitHeader (Text.Utf8.encode cs ++ (ofBody body ++ more)) =
      some (Text.Utf8.encode (cs ++ header body.length), body ++ more) := by
  have hs := splitHeader_separator (not_infix_border (n := body.length) h) (body ++ more)
  rw [← Text.Utf8.encode_append] at hs
  rw [← hs, Text.Utf8.encode_append, ofBody]
  simp only [List.append_assoc]

/-- Frames behind a text laid out like a value are all found where its last line is blank, and none
of them otherwise. -/
theorem bodies_drain_frames {cs : Text} (hs : Tidy cs) (h : AfterReturns Tidy cs)
    {messages : List Fields} (hf : ∀ m ∈ messages, Fits (bodyOf (.obj m))) :
    (drain (Text.Utf8.encode cs ++ (messages.map fun m => encode (.obj m)).flatten) none).bodies =
      if EndsBlank cs then messages.map fun m => Body.ofBytes (bodyOf (.obj m)) else [] := by
  induction messages generalizing cs with
  | nil =>
    obtain ⟨rest, -, -, -, hi, hd⟩ := drain_laid hs h
    rw [hd, List.map_nil, List.flatten_nil, List.append_nil,
      drain_waiting ((splitHeader_eq_none_iff _).2 hi)]
    simp
  | cons m messages ih =>
    obtain ⟨rest, hrest, hr, he, hi, hd⟩ := drain_laid hs h
    have hms : ∀ m ∈ messages, Fits (bodyOf (.obj m)) := fun m hm =>
      hf m (List.mem_cons_of_mem _ hm)
    have hsplit := splitHeader_border hi (bodyOf (.obj m))
      (messages.map fun m => encode (.obj m)).flatten
    rw [hd, List.map_cons, List.flatten_cons, encode]
    by_cases hb : EndsBlank rest
    · have hframes := drain_frames (List.forall_mem_map.2 hms) []
      rw [List.append_nil, List.map_map, (drain_waiting rfl : drain [] none = _)] at hframes
      rw [if_pos (he.1 hb), drain_header hsplit
        (contentLength?_border hrest hr hb (hf m List.mem_cons_self)), drain_body (by simp),
        List.drop_left, List.take_left]
      change _ :: (drain (messages.map (ofBody ∘ fun m => bodyOf (.obj m))).flatten none).bodies = _
      rw [hframes, List.map_cons]
      simp [Completed.append, List.map_map, Function.comp_def]
    · -- The header is taken for the end of the body before it, and the next body for a header.
      obtain ⟨ho, hl, hn⟩ := laid_write m
      rw [if_neg fun hc => hb (he.2 hc), drain_skip hsplit (contentLength?_glued hrest hr hb _)]
      exact (ih (.inr ho) hl hms).trans (if_neg hn)

/-- A header without a usable length is passed over, and its body is not. If the body is a value,
then all messages behind it are read where its last line is blank, as they would be without it, and
none of them is read otherwise. -/
theorem decodeAll_behind_stray {head : Head} (hh : contentLength? head.bytes = none) {t : Text}
    {v : Json} (ht : Json.read t = .ok v) {messages : List Fields}
    (hf : ∀ m ∈ messages, Fits (bodyOf (.obj m))) :
    decodeAll (head.bytes ++ separator ++ Text.Utf8.encode t ++
        (messages.map fun m => encode (.obj m)).flatten) =
      if EndsBlank t then messages.map fun m => Body.ofBytes (bodyOf (.obj m)) else [] := by
  obtain ⟨ho, hl⟩ := Json.laid_of_read ht
  have hs := head.splitHeader_bytes
    (Text.Utf8.encode t ++ (messages.map fun m => encode (.obj m)).flatten)
  rw [decodeAll, Reader.feed, Reader.fresh, List.nil_append]
  simp only [List.append_assoc]
  rw [drain_skip hs hh]
  exact bodies_drain_frames (.inr ho) hl hf

/-- Two messages behind a header without a length and a body that ends its line. -/
theorem decodeAll_behind_stray_line :
    let head := Text.Utf8.encodeString "Content-Type: text/plain"
    let t := Json.write .tight (.arr [.str "c", .int 1]) ++ "\r\n ".toList
    let messages : List Fields := [[("id", .int 1)], [("id", .int 2)]]
    contentLength? head = none ∧ Json.read t = .ok (.arr [.str "c", .int 1]) ∧
      (∀ m ∈ messages, Fits (bodyOf (.obj m))) ∧ EndsBlank t ∧
      decodeAll (head ++ separator ++ Text.Utf8.encode t ++
          (messages.map fun m => encode (.obj m)).flatten) =
        messages.map fun m => Body.ofBytes (bodyOf (.obj m)) := by
  intro head t messages
  have hh : contentLength? (Head.bytes ⟨[head], by decide, by decide⟩) = none := by decide +kernel
  have hs := Json.spells_write Json.blank_tight (.arr [.str "c", .int 1]) (by decide +kernel)
  have hg : Gap "\r\n ".toList := by simp [Gap, isSpace]
  have ht : Json.read t = .ok (.arr [.str "c", .int 1]) :=
    Json.read_of_spells Json.gap_nil hs hg
  have hf : ∀ m ∈ messages, Fits (bodyOf (.obj m)) := by decide +kernel
  have hb : EndsBlank t := by decide +kernel
  exact ⟨hh, ht, hf, hb, (decodeAll_behind_stray hh ht hf).trans (if_pos hb)⟩

/-- Three messages are read, and none of them behind a header without a length and its body: an
object without members. -/
theorem decodeAll_loses_messages :
    let head := Text.Utf8.encodeString "Content-Type: text/plain"
    let frames := ([1, 2, 3].map fun n => encode (.obj [("id", .int n)])).flatten
    contentLength? head = none ∧ (decodeAll frames).length = 3 ∧
      decodeAll (head ++ separator ++ bodyOf (.obj []) ++ frames) = [] := by
  intro head frames
  refine ⟨by decide +kernel, by decide +kernel, ?_⟩
  exact List.length_eq_zero_iff.1 (by decide +kernel)

end GhostText.Frame
