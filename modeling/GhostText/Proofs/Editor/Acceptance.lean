import GhostText.Proofs.Document.Offsets
import GhostText.Proofs.Editor.Suggesting
import GhostText.Proofs.Session.Ending

/-!
# What accepting does to the text

A completion is either completed at the caret or put in place of its range, and then the caret is
moved. Both are one and the same splice of the text. A completion whose range is not in the text is
turned down instead, and the text is what it was before the suggestion was shown.
-/

namespace GhostText

namespace Buffer

variable {b : Buffer} {i j : Nat}

theorem onBoundary_lf (t : Text) (i : Nat) : Text.OnBoundary .lf t i := by
  simp [Text.OnBoundary]

/-- What is missing of a completion at the caret is put there; that is the completion in place of
its range. -/
theorem splice_missingText {c : Completion} {rest : Text} (lf : b.eol = .lf)
    (within : b.caret ≤ b.text.length) (hij : i ≤ j) (hj : j ≤ b.text.length)
    (range : c.range = ⟨Text.positionAt b.eol.text b.text i, Text.positionAt b.eol.text b.text j⟩)
    (h : World.missingText? c b = some rest) :
    b.splice b.caret b.caret rest = b.splice i j c.text.toList := by
  have hi : i ≤ b.text.length := hij.trans hj
  rw [lf] at range
  have hexisting : Text.inRange LineBreak.lf.text b.text c.range = Text.slice b.text i j := by
    rw [range, Text.inRange, Text.offsetAt_positionAt hi (onBoundary_lf _ _),
      Text.offsetAt_positionAt hj (onBoundary_lf _ _), Text.ascending, if_neg (by omega)]
  unfold World.missingText? at h
  rw [lf, hexisting] at h
  simp only [Option.ite_none_right_eq_some, Option.some.injEq, List.isPrefixOf_iff_prefix] at h
  obtain ⟨hcaret, ⟨rest', hcompletes⟩, hrest⟩ := h
  rw [range, caretPosition, lf] at hcaret
  obtain rfl := Text.positionAt_inj within hj hcaret
  rw [← hcompletes, List.drop_left] at hrest
  subst hrest
  have hheld : b.text.take i ++ Text.slice b.text i b.caret = b.text.take b.caret := by
    conv_rhs => rw [← List.take_append_drop i (b.text.take b.caret)]
    rw [List.take_take, Nat.min_eq_left hij, Text.slice]
  have hlength : (Text.slice b.text i b.caret).length = b.caret - i := by
    rw [Text.slice, List.length_drop, List.length_take_of_le hj]
  simp only [splice, Splice.apply, Buffer.mk.injEq, and_true]
  constructor
  · rw [← hcompletes, ← List.append_assoc (b.text.take i), hheld]
  · rw [← hcompletes, List.length_append, hlength]
    omega

/-- A range between two offsets lies in the text. -/
theorem offsets_positionAt (lf : b.eol = .lf) (hi : i ≤ b.text.length) (hj : j ≤ b.text.length) :
    b.offsets (Range.unchecked
      ⟨Text.positionAt b.eol.text b.text i, Text.positionAt b.eol.text b.text j⟩) = .ok (i, j) := by
  rw [offsets, lf, Text.checkedOffsets_unchecked]
  simp only [Text.hasPlace_positionAt hi (onBoundary_lf _ _),
    Text.hasPlace_positionAt hj (onBoundary_lf _ _), if_true,
    Text.offsetAt_positionAt hi (onBoundary_lf _ _),
    Text.offsetAt_positionAt hj (onBoundary_lf _ _)]

/-- Behind a text that was put in, the caret is where the position reached by inserting it is. -/
theorem moveTo_splice (lf : b.eol = .lf) (hi : i ≤ b.text.length) (text : Text) :
    (b.splice i j text).moveTo
        (Text.positionAfter b.eol.text (Text.positionAt b.eol.text b.text i) text).unchecked =
      .ok (b.splice i j text) := by
  have hl : (b.text.take i).length = i := List.length_take_of_le hi
  have hend : (b.text.take i ++ text ++ b.text.drop j).take (i + text.length) =
      b.text.take i ++ text := List.take_left' (by simp [hl])
  have hplace : Text.positionAfter LineBreak.lf.text (Text.positionAt LineBreak.lf.text b.text i)
      text = Text.positionAt LineBreak.lf.text (b.text.take i ++ text ++ b.text.drop j)
        (i + text.length) := by
    rw [Text.positionAt, Text.positionAfter_endPosition (onBoundary_lf _ _), Text.positionAt, hend]
  have hback := Text.offsetAt_positionAt (t := b.text.take i ++ text ++ b.text.drop j)
    (i := i + text.length) (by simp [hl]) (onBoundary_lf _ _)
  simp only [moveTo, splice, Splice.apply, lf, hplace, Position.offset_unchecked, hback, bind,
    Except.bind, pure, Except.pure]

end Buffer

namespace World

variable {w w' : World} {n : Nat} {s : Session} {c : Canvas} (run : Runner)

/-- Whichever way a completion is put into the text, it is put in place of its range. -/
theorem Alone.applyCompletion (alone : w.Alone) {c : Completion} {i j : Nat}
    (lf : w.buffer.eol = .lf) (within : w.buffer.caret ≤ w.buffer.text.length) (hij : i ≤ j)
    (hj : j ≤ w.buffer.text.length)
    (range : c.range = ⟨Text.positionAt w.buffer.eol.text w.buffer.text i,
      Text.positionAt w.buffer.eol.text w.buffer.text j⟩) :
    (applyCompletion run c w).1 = .ok () ∧
      (applyCompletion run c w).2.canvas =
        { w.canvas with buffer := w.buffer.splice i j c.text.toList } ∧
      (applyCompletion run c w).2.Alone := by
  have hclears := alone.clears run "api"
  unfold World.applyCompletion
  cases hmissing : missingText? c w.buffer with
  | some rest =>
    obtain ⟨hcanvas, halone⟩ := hclears.insertText rest
    have hsplice := Buffer.splice_missingText lf within hij hj range hmissing
    exact ⟨rfl, hcanvas.trans (by rw [← hsplice]; rfl), halone⟩
  | none =>
    obtain ⟨hout, hcanvas, halone⟩ := hclears.replaceRange c.range.unchecked c.text.toList
    have hoffsets : w.canvas.buffer.offsets c.range.unchecked = .ok (i, j) := by
      rw [range]
      exact Buffer.offsets_positionAt lf (hij.trans hj) hj
    rw [hoffsets] at hout hcanvas
    have hmove := Buffer.moveTo_splice (j := j) lf (hij.trans hj) c.text.toList
    dsimp only at hcanvas ⊢
    generalize replaceRange run c.range.unchecked c.text.toList "api" w = r at hout hcanvas halone
    obtain ⟨out, w₁⟩ := r
    obtain rfl : out = .ok () := hout
    have hbuffer : w₁.buffer = w.buffer.splice i j c.text.toList := congrArg Canvas.buffer hcanvas
    have hmoveTo : w₁.buffer.moveTo (Text.positionAfter w.buffer.eol.text c.range.start
        c.text.toList).unchecked = .ok w₁.buffer := by
      rw [hbuffer, range]
      exact hmove
    have hmoved : (w₁.updateBuffer fun _ => w₁.buffer).Alone := halone.updateCanvas _
    have hmovement : moveCaret run (Text.positionAfter w.buffer.eol.text c.range.start
        c.text.toList).unchecked w₁ =
          (.ok (), (w₁.updateBuffer fun _ => w₁.buffer).signal .cursorMoved) := by
      rw [moveCaret, hmoveTo, ← hmoved.cursorMoved_eq run]
    dsimp only
    rw [hmovement]
    exact ⟨rfl, hcanvas, hmoved.signal _⟩

/-- A range that is not in the text is not replaced, unless it ends at the caret. -/
theorem Alone.applyCompletion_outside (alone : w.Alone) {c : Completion}
    (outside : ¬ (Text.hasPlace w.buffer.eol.text w.buffer.text c.range.start ∧
      Text.hasPlace w.buffer.eol.text w.buffer.text c.range.stop))
    (elsewhere : c.range.stop ≠ w.buffer.caretPosition) :
    ∃ f, World.applyCompletion run c w = (.error f, w.signal (.aboutToChange "api")) := by
  have hmissing : missingText? c w.buffer = none := by
    rw [missingText?, if_neg (Ne.symm elsewhere)]
  obtain ⟨f, hf⟩ : ∃ f, (w.signal (.aboutToChange "api")).buffer.offsets c.range.unchecked =
      .error f := by
    change ∃ f, w.buffer.offsets c.range.unchecked = .error f
    rw [Buffer.offsets, Text.checkedOffsets_unchecked]
    split
    · rw [if_neg fun hstop => outside ⟨‹_›, hstop⟩]
      exact ⟨_, rfl⟩
    · exact ⟨_, rfl⟩
  refine ⟨f, ?_⟩
  have hreplace : replaceRange run c.range.unchecked c.text.toList "api" w =
      (.error f, w.signal (.aboutToChange "api")) := by
    rw [replaceRange, alone.aboutToChange_eq run]
    simp only [hf]
  simp only [World.applyCompletion, hmissing, hreplace]

/-- Once the suggestion is taken away, all depends on whether its completion can be put in. -/
theorem Suggesting.acceptSession_eq (h : w.Suggesting c n s) : acceptSession run n w =
    match World.applyCompletion run s.completion ((w.beginClosing n).removeSuggestion n s).2 with
    | (.error f, w) => (false, (w.log .warning
        ("Could not apply completion " ++ s.uuid ++ ": " ++ f.message)).finishRejected n s.uuid
          "apply-failure")
    | (.ok (), w) => (true, w.finishAccepted n s.uuid) := by
  obtain ⟨hfound, -⟩ := h.removeSuggestion
  unfold acceptSession
  rw [h.found]
  dsimp only
  rw [if_neg (by simp [h.unended])]
  generalize (w.beginClosing n).removeSuggestion n s = r at hfound ⊢
  obtain ⟨found, w₁⟩ := r
  obtain rfl : found = true := hfound
  rfl

/-- Accepting puts the completion in place of its range, in the text as it was before the suggestion
was shown. -/
theorem Suggesting.acceptSession_applies (h : w.Suggesting c n s) {i j : Nat}
    (lf : c.buffer.eol = .lf) (within : c.buffer.caret ≤ c.buffer.text.length) (hij : i ≤ j)
    (hj : j ≤ c.buffer.text.length)
    (range : s.completion.range = ⟨Text.positionAt c.buffer.eol.text c.buffer.text i,
      Text.positionAt c.buffer.eol.text c.buffer.text j⟩) :
    (acceptSession run n w).1 = true ∧
      (acceptSession run n w).2.buffer = c.buffer.splice i j s.completion.text.toList ∧
      (acceptSession run n w).2.Alone := by
  obtain ⟨-, hcanvas, halone⟩ := h.removeSuggestion
  have hbuffer : ((w.beginClosing n).removeSuggestion n s).2.buffer = c.buffer :=
    (congrArg Canvas.buffer hcanvas :)
  obtain ⟨hout, happlied, halone⟩ := halone.applyCompletion run (hbuffer ▸ lf) (hbuffer ▸ within)
    hij (hbuffer ▸ hj) (hbuffer ▸ range)
  rw [h.acceptSession_eq run]
  generalize World.applyCompletion run s.completion
    ((w.beginClosing n).removeSuggestion n s).2 = r at hout happlied halone ⊢
  obtain ⟨out, w₁⟩ := r
  obtain rfl : out = .ok () := hout
  have heditor := editor_finishAccepted n s.uuid w₁
  refine ⟨rfl, ?_, ?_, fun m hm => ?_, ?_⟩
  · rw [World.buffer, heditor, ← hbuffer]
    exact (congrArg Canvas.buffer happlied :)
  · rw [heditor, halone.listeners]
  · exact halone.hidden m ((dims_finishAccepted ..).shown m hm)
  · rw [heditor, halone.unblocked]

/-- Accepting turns the completion down if its range is not in the text, and the server is told that
once. -/
theorem Suggesting.acceptSession_outside (h : w.Suggesting c n s)
    (outside : ¬ (Text.hasPlace c.buffer.eol.text c.buffer.text s.completion.range.start ∧
      Text.hasPlace c.buffer.eol.text c.buffer.text s.completion.range.stop))
    (elsewhere : s.completion.range.stop ≠ c.buffer.caretPosition) :
    (acceptSession run n w).1 = false ∧ (acceptSession run n w).2.buffer = c.buffer ∧
      ((acceptSession run n w).2.session? n).map Session.state = some .rejected ∧
      ∃ es, (acceptSession run n w).2.events = w.events ++ es ∧
        es.filter Event.isEnding =
          (if w.transport.accepting then [.sent (rejectionOf [s.uuid])] else []) ++
            [.signalled ({ s with state := .rejected, reason := "apply-failure" } : Session).finish]
    := by
  obtain ⟨-, hcanvas, halone⟩ := h.removeSuggestion
  have hbuffer : ((w.beginClosing n).removeSuggestion n s).2.buffer = c.buffer :=
    (congrArg Canvas.buffer hcanvas :)
  obtain ⟨f, hrefused⟩ := halone.applyCompletion_outside run (hbuffer ▸ outside)
    (hbuffer ▸ elsewhere)
  have hunfinished := Session.unfinished_of_isOpen h.unended
  obtain ⟨a, -, hclosed⟩ := session?_withdrawn h.found
  have hwithdraw := ends_withdraw h.found hunfinished
  rw [h.acceptSession_eq run, hrefused]
  generalize ((w.beginClosing n).removeSuggestion n s).2 = w₁ at hbuffer hclosed hwithdraw ⊢
  dsimp only
  have htold : w₁.Ends ((w₁.signal (.aboutToChange "api")).log .warning
      ("Could not apply completion " ++ s.uuid ++ ": " ++ f.message)) [] := by
    refine .of_silent rfl (fun _ t ht => ⟨t, ht, rfl, fun _ => rfl⟩) (fun _ ht => ht)
      ⟨_, List.append_assoc .., ?_⟩
    simp [Event.isEnding]
  have hrejected := finishes_rejected (w := (w₁.signal (.aboutToChange "api")).log .warning
    ("Could not apply completion " ++ s.uuid ++ ": " ++ f.message)) hclosed "apply-failure"
  have hends := (hwithdraw.trans htold).trans (hrejected.ends hclosed hunfinished rfl rfl)
  obtain ⟨es, he, hfarewell⟩ := hends.told
  refine ⟨rfl, ?_, ?_, es, he, hfarewell.trans ?_⟩
  · rw [World.buffer, editor_finishRejected]
    exact hbuffer
  · exact (congrArg (Option.map Session.state) hrejected.session).trans rfl
  · simp only [List.append_nil, List.nil_append, List.flatMap_singleton, farewell,
      hrejected.session, hends.accepting]
    rfl

/-- Accepting a suggestion that was just shown puts its completion in place of its range, with the
caret behind it and one step more to go back over, which leads back. A completion whose range is not
in the text, and that does not end at the caret, is turned down, and the text stays as it was. -/
theorem accepts_or_rejects (alone : w.Alone) (found : w.session? n = some s)
    (fresh : s.artifact = none) (unended : s.isOpen) (lf : w.buffer.eol = .lf)
    (within : w.buffer.caret ≤ w.buffer.text.length) :
    let accepted := acceptSession run n (startOnce n w).2
    (startOnce n w).1 = .ok () ∧
    (∀ i j, i ≤ j → j ≤ w.buffer.text.length →
      s.completion.range = ⟨Text.positionAt w.buffer.eol.text w.buffer.text i,
        Text.positionAt w.buffer.eol.text w.buffer.text j⟩ →
      accepted.1 = true ∧
        accepted.2.buffer.text =
          w.buffer.text.take i ++ s.completion.text.toList ++ w.buffer.text.drop j ∧
        accepted.2.buffer.caret = i + s.completion.text.toList.length ∧
        accepted.2.buffer.history = ⟨w.buffer.text, w.buffer.caret⟩ :: w.buffer.history ∧
        (undo run accepted.2).1 = .ok true ∧ (undo run accepted.2).2.buffer = w.buffer) ∧
    (¬ (Text.hasPlace w.buffer.eol.text w.buffer.text s.completion.range.start ∧
        Text.hasPlace w.buffer.eol.text w.buffer.text s.completion.range.stop) →
      s.completion.range.stop ≠ w.buffer.caretPosition →
      accepted.1 = false ∧ accepted.2.buffer = w.buffer ∧
        (accepted.2.session? n).map Session.state = some .rejected ∧
        ∃ es signal, accepted.2.events = (startOnce n w).2.events ++ es ∧
          es.filter Event.isEnding =
            (if w.transport.accepting then [.sent (rejectionOf [s.uuid])] else []) ++
              [.signalled signal]) := by
  intro accepted
  obtain ⟨hstarted, hsuggests⟩ := startOnce_suggesting alone found fresh unended
  have haccepting := congrArg Transport.accepting (beside_startSession n s w).transport
  have haccepted : accepted = acceptSession run n (w.startSession n s) := by
    rw [show accepted = acceptSession run n (startOnce n w).2 from rfl, hstarted]
  rw [haccepted, hstarted]
  refine ⟨rfl, fun i j hij hj range => ?_, fun outside elsewhere => ?_⟩
  · obtain ⟨hout, hbuffer, halone⟩ :=
      hsuggests.acceptSession_applies run lf within hij hj range
    obtain ⟨hundone, hback⟩ := halone.undo_eq run
    rw [hbuffer] at hundone hback
    refine ⟨hout, congrArg Buffer.text hbuffer, congrArg Buffer.caret hbuffer,
      congrArg Buffer.history hbuffer, hundone, hback.trans ?_⟩
    have hcaret : min w.buffer.text.length w.buffer.caret = w.buffer.caret := by omega
    change ({ w.buffer with
      text := w.buffer.text, caret := min w.buffer.text.length w.buffer.caret } : Buffer) = _
    rw [hcaret]
  · obtain ⟨hout, hbuffer, hstate, es, he, htold⟩ :=
      hsuggests.acceptSession_outside run outside elsewhere
    rw [haccepting] at htold
    exact ⟨hout, hbuffer, hstate, es, _, he, htold⟩

/-- One completion is put in place of two lines, away from the caret and shown as ghost text, and
another one is for a line that is not there. -/
theorem accepts_or_rejects_two_lines :
    let t : Transport := ⟨true, [], .atOnce, false, []⟩
    let place (line character : Int) : Json :=
      .obj [("line", .int line), ("character", .int character)]
    let completion (text : String) (start stop : Json) : Json := .obj [("uuid", .str "u"),
      ("text", .str text), ("range", .obj [("start", start), ("end", stop)])]
    let before : List Action := [.editor (.type (.str "!")),
      .session (.create (completion "x\n𝄞y" (place 0 2) (place 1 1)) true .null true),
      .session (.create (completion "z" (place 0 0) (place 7 0)) false .null true)]
    ∃ w₀, startEditing 1 t ⟨.null, .null, [], []⟩ ⟨.str "𝄞b\ncd", .str "/a.txt", .null, .lf⟩
        none none none none = .ok w₀ ∧
      let w := w₀.after before
      let accepted n := acceptSession (runTo depthLimit) n (startOnce n w).2
      w.buffer.text = "𝄞b\ncd!".toList ∧
        (accepted 0).1 = true ∧ (accepted 0).2.buffer.text = "𝄞x\n𝄞yd!".toList ∧
        (accepted 0).2.buffer.caret = 5 ∧
        (accepted 1).1 = false ∧ (accepted 1).2.buffer = w.buffer := by
  intro t place completion before
  refine ⟨_, rfl, ?_⟩
  intro w accepted
  have halone : w.Alone :=
    .of_unshown (by decide +kernel) (by decide +kernel) (by decide +kernel)
  obtain ⟨-, hreplaced, -⟩ := accepts_or_rejects (n := 0) (runTo depthLimit) halone
    (Option.eq_some_of_isSome (by decide +kernel)) (Option.isNone_iff_eq_none.1 (by decide +kernel))
    (by decide +kernel) (by decide +kernel) (by decide +kernel)
  obtain ⟨-, -, houtside⟩ := accepts_or_rejects (n := 1) (runTo depthLimit) halone
    (Option.eq_some_of_isSome (by decide +kernel)) (Option.isNone_iff_eq_none.1 (by decide +kernel))
    (by decide +kernel) (by decide +kernel) (by decide +kernel)
  obtain ⟨hout, htext, hcaret, -⟩ := hreplaced 1 4 (by decide) (by decide +kernel)
    (by decide +kernel)
  obtain ⟨hout', hbuffer', -⟩ := houtside (by decide +kernel) (by decide +kernel)
  exact ⟨by decide +kernel, hout, htext.trans (by decide +kernel),
    hcaret.trans (by decide +kernel), hout', hbuffer'⟩

end World

end GhostText
