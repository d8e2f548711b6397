import GhostText.Proofs.Editor.Ghost
import GhostText.Proofs.Sync.Typing

/-!
# An editor that shows one suggestion

Where no session listens an edit is the edit of the text and nothing else. Where one session shows
its suggestion it is told of every edit before it is made, and takes the suggestion away: the edit
then finds the text, the caret and the history as they were before the session was started.
-/

namespace GhostText

def Session.startedOn (c : Canvas) (s : Session) : Session :=
  { s with artifact := some (c.display s.completion s.inline).1, history := c.buffer.history }

namespace World

variable {w w' : World} {n : Nat} {s : Session} {c : Canvas} (run : Runner)

/-! ## Editors in which nobody listens -/

/-- No session is shown in the editor, and none listens to it. -/
structure Alone (w : World) : Prop where
  listeners : w.editor.listeners = []
  hidden : ∀ n, ¬ w.Shows n
  unblocked : w.editor.blocked = false

/-- Where no session is shown none listens. -/
theorem Alone.of_unshown (listeners : w.editor.listeners = [])
    (unblocked : w.editor.blocked = false) (h : ∀ s ∈ w.sessions, s.isShown = false) :
    w.Alone := by
  refine ⟨listeners, ?_, unblocked⟩
  rintro n ⟨s, hs, hshown⟩
  simp [h s (List.mem_of_getElem? hs)] at hshown

theorem Alone.congr (h : w.Alone) (hs : w'.sessions = w.sessions)
    (hl : w'.editor.listeners = w.editor.listeners) (hb : w'.editor.blocked = w.editor.blocked) :
    w'.Alone := by
  refine ⟨hl.trans h.listeners, fun m hm => h.hidden m ?_, hb.trans h.unblocked⟩
  rwa [Shows, session?, hs] at hm

theorem listeners_rejectSession (n : Nat) (reason : String) (w : World) :
    (w.rejectSession n reason).2.editor.listeners ⊆ w.editor.listeners := by
  unfold rejectSession
  cases w.session? n with
  | none => exact List.Subset.refl _
  | some s =>
    dsimp only
    split
    · exact List.Subset.refl _
    · rw [editor_finishRejected, listeners_removeSuggestion]
      exact (List.filter_sublist ..).subset

theorem listeners_noteChange (w : World) :
    w.noteChange.editor.listeners ⊆ w.editor.listeners := by
  unfold noteChange
  cases w.controller with
  | none => exact List.Subset.refl _
  | some c =>
    dsimp only
    split
    · exact List.Subset.refl _
    · unfold rejectCurrent
      split
      · exact List.Subset.refl _
      · exact listeners_rejectSession ..

/-- Without a session that is shown the controller changes nothing on the canvas. -/
theorem canvas_noteChange (h : ∀ n, ¬ w.Shows n) : w.noteChange.canvas = w.canvas := by
  unfold noteChange
  cases w.controller with
  | none => rfl
  | some c =>
    dsimp only
    split
    · rfl
    · have hshows : ∀ n,
          ¬ (w.updateController fun c => { c with latest := w.buffer.text }).Shows n := h
      exact canvas_rejectCurrent hshows "edit"

namespace Alone

variable (h : w.Alone)

include h

theorem signal (e : Signal) : (w.signal e).Alone := h.congr rfl rfl rfl

theorem updateCanvas (f : Canvas → Canvas) : (w.updateCanvas f).Alone := h.congr rfl rfl rfl

/-- Where nobody listens an edit is only signalled. -/
theorem aboutToChange_eq (origin : String) :
    aboutToChange run origin w = w.signal (.aboutToChange origin) :=
  aboutToChange_unheard run h.listeners h.unblocked origin

theorem cursorMoved_eq : cursorMoved run w = w.signal .cursorMoved :=
  cursorMoved_unheard run h.listeners h.unblocked

theorem toggleMode_eq (entering : Bool) : toggleMode entering w = w := by
  simp [toggleMode, h.unblocked, tellSessions, h.listeners]

theorem keyPressed_eq (key : String) : keyPressed run key w = (false, w) := by
  simp [keyPressed, h.unblocked, h.listeners]

/-- Nobody writes into the text when it has changed. -/
theorem contentChanged_canvas : w.contentChanged.canvas = w.canvas ∧ w.contentChanged.Alone := by
  unfold contentChanged
  rw [if_neg (by simp [h.unblocked])]
  dsimp only
  split
  · have hs := h.signal .contentChanged
    refine ⟨canvas_noteChange hs.hidden, ?_, fun m hm => ?_, ?_⟩
    · exact List.subset_nil.1 (hs.listeners ▸ listeners_noteChange (w.signal .contentChanged))
    · exact hs.hidden m ((dims_noteChange _).shown m hm)
    · exact (beside_noteChange _).blocked.trans hs.unblocked
  · exact ⟨rfl, h.signal .contentChanged⟩

end Alone

/-! ## Edits once the sessions were told -/

/-- Once the sessions were told that the text is about to change, the canvas is a certain one and
nobody is left who listens. -/
structure Clears (origin : String) (c : Canvas) (w : World) : Prop where
  canvas : (aboutToChange run origin w).canvas = c
  alone : (aboutToChange run origin w).Alone

namespace Clears

variable {run} {origin : String} (h : w.Clears run origin c)

include h

/-- A text is inserted into what the sessions have left. -/
theorem insertText (text : Text) : (insertText run text origin w).canvas =
      { c with buffer := c.buffer.splice c.buffer.caret c.buffer.caret text } ∧
    (insertText run text origin w).Alone := by
  have hcanvas := h.canvas
  have hsplice := h.alone.updateCanvas fun c =>
    { c with buffer := c.buffer.splice c.buffer.caret c.buffer.caret text }
  obtain ⟨hchanged, halone⟩ := hsplice.contentChanged_canvas
  refine ⟨hchanged.trans ?_, halone⟩
  rw [← hcanvas]
  rfl

/-- A range is looked for in what the sessions have left, and replaced if it is there. -/
theorem replaceRange (range : UncheckedRange) (text : Text) :
    (replaceRange run range text origin w).1 = (c.buffer.offsets range).map (fun _ => ()) ∧
    (replaceRange run range text origin w).2.canvas =
      (match c.buffer.offsets range with
        | .error _ => c
        | .ok o => { c with buffer := c.buffer.splice o.1 o.2 text }) ∧
    (replaceRange run range text origin w).2.Alone := by
  have hcanvas := h.canvas
  have halone := h.alone
  have hbuffer : (aboutToChange run origin w).buffer = c.buffer := congrArg Canvas.buffer hcanvas
  unfold World.replaceRange
  dsimp only
  rw [hbuffer]
  cases c.buffer.offsets range with
  | error f => exact ⟨rfl, hcanvas, halone⟩
  | ok o =>
    have hsplice := halone.updateCanvas fun c =>
      { c with buffer := c.buffer.splice o.1 o.2 text }
    obtain ⟨hchanged, halone⟩ := hsplice.contentChanged_canvas
    refine ⟨rfl, hchanged.trans ?_, halone⟩
    rw [← hcanvas]
    rfl

/-- What is gone back to is what the sessions have left, also where they have left nothing. -/
theorem undo (hgoes : origin = "undo") (hw : w.buffer.history ≠ []) : match c.buffer.undo? with
    | none => (undo run w).1 = .error .emptyHistory ∧ (undo run w).2.canvas = c
    | some b => (undo run w).1 = .ok true ∧ (undo run w).2.canvas = { c with buffer := b } ∧
        (undo run w).2.Alone := by
  subst hgoes
  have hcanvas := h.canvas
  have halone := h.alone
  have hbuffer : (aboutToChange run "undo" w).buffer = c.buffer := congrArg Canvas.buffer hcanvas
  unfold World.undo
  rw [if_neg (by simpa using hw)]
  dsimp only
  rw [hbuffer]
  cases c.buffer.undo? with
  | none => exact ⟨rfl, hcanvas⟩
  | some b =>
    have hback := halone.updateCanvas fun c => { c with buffer := b }
    obtain ⟨hchanged, halone⟩ := hback.contentChanged_canvas
    refine ⟨rfl, hchanged.trans ?_, halone⟩
    rw [← hcanvas]
    rfl

end Clears

/-- Where nobody listens the canvas is left as it is. -/
theorem Alone.clears (h : w.Alone) (origin : String) : w.Clears run origin w.canvas := by
  refine ⟨?_, ?_⟩
  · rw [h.aboutToChange_eq]
    rfl
  · rw [h.aboutToChange_eq]
    exact h.signal _

/-- Where nobody listens, to go back is to go back in the text, if there is a way back. -/
theorem Alone.undo_eq (alone : w.Alone) : (undo run w).1 = .ok !w.buffer.history.isEmpty ∧
    (undo run w).2.buffer = (w.buffer.undo?).getD w.buffer := by
  cases hh : w.buffer.history with
  | nil =>
    have hstays : undo run w = (.ok false, w) := by
      unfold undo
      rw [hh]
      rfl
    have hnone : w.buffer.undo? = none := by
      rw [Buffer.undo?, hh]
    rw [hstays, hnone]
    exact ⟨rfl, rfl⟩
  | cons t rest =>
    obtain ⟨b, hb⟩ : ∃ b, w.buffer.undo? = some b := by
      rw [Buffer.undo?, hh]
      exact ⟨_, rfl⟩
    have hundo := (alone.clears run "undo").undo rfl (by rw [hh]; exact List.cons_ne_nil _ _)
    rw [show w.canvas.buffer.undo? = some b from hb] at hundo
    rw [hb]
    exact ⟨hundo.1, congrArg Canvas.buffer hundo.2.1⟩

/-! ## Editors in which one session is shown -/

/-- One session is shown in the editor and listens to it; the canvas was another one when it was
started, and nothing has happened to it since. -/
structure Suggesting (c : Canvas) (n : Nat) (s : Session) (w : World) : Prop where
  found : w.session? n = some s
  unended : s.isOpen
  artifact : s.artifact = some (c.display s.completion s.inline).1
  history : s.history = c.buffer.history
  canvas : w.canvas = (c.display s.completion s.inline).2
  listeners : w.editor.listeners = [n]
  others : ∀ m, m ≠ n → ¬ w.Shows m
  unblocked : w.editor.blocked = false

/-- A session that is started where nobody listens is the only one that is shown. -/
theorem startOnce_suggesting (alone : w.Alone) (found : w.session? n = some s)
    (fresh : s.artifact = none) (unended : s.isOpen) :
    startOnce n w = (.ok (), w.startSession n s) ∧
      (w.startSession n s).Suggesting w.canvas n (s.startedOn w.canvas) := by
  have hunfinished := Session.unfinished_of_isOpen unended
  refine ⟨by simp [startOnce, found, fresh, hunfinished], ?_, unended, rfl, rfl, ?_, ?_, ?_, ?_⟩
  · rw [session?_startSession, if_pos rfl, found]
    rfl
  · simp [startSession, notifyShown, updateEditor, updateCanvas, updateSession, World.canvas,
      Session.startedOn]
  · rw [listeners_startSession, alone.listeners, List.nil_append]
  · rintro m hm ⟨t, ht, hshown⟩
    rw [session?_startSession, if_neg (Ne.symm hm)] at ht
    exact alone.hidden m ⟨t, ht, hshown⟩
  · simpa [startSession, notifyShown, updateEditor, updateCanvas, updateSession]
      using alone.unblocked

namespace Suggesting

variable (h : w.Suggesting c n s)

include h

theorem congr (hs : w'.sessions = w.sessions) (he : w'.editor = w.editor) :
    w'.Suggesting c n s := by
  have hsession : ∀ m, w'.session? m = w.session? m := fun m => by rw [session?, hs, session?]
  refine ⟨(hsession n).trans h.found, h.unended, h.artifact, h.history, ?_, ?_, ?_, ?_⟩
  · rw [World.canvas, he]
    exact h.canvas
  · rw [he, h.listeners]
  · rintro m hm ⟨t, ht, hshown⟩
    exact h.others m hm ⟨t, (hsession m).symm.trans ht, hshown⟩
  · rw [he, h.unblocked]

/-- The suggestion is found, and once it was taken away the canvas is what it was before. -/
theorem removeSuggestion :
    ((w.beginClosing n).removeSuggestion n s).1 = true ∧
      ((w.beginClosing n).removeSuggestion n s).2.canvas =
        ⟨c.buffer, if s.inline then c.panel else ""⟩ ∧
      ((w.beginClosing n).removeSuggestion n s).2.Alone := by
  have hcanvas : (w.beginClosing n).canvas = (c.display s.completion s.inline).2 := h.canvas
  obtain ⟨place, hplace⟩ := Option.isSome_iff_exists.1 (c.find?_display s.completion s.inline)
  have hremoved : (w.beginClosing n).removeSuggestion n s = (true,
      (((w.beginClosing n).updateSession n fun t =>
        { t with artifact := some ((c.display s.completion s.inline).1.remove
          (c.display s.completion s.inline).2).1 }).updateCanvas
            fun _ => ((c.display s.completion s.inline).1.remove
              (c.display s.completion s.inline).2).2).updateBuffer
                fun b => { b with history := c.buffer.history }) := by
    unfold World.removeSuggestion
    rw [h.artifact, h.history, hcanvas]
    simp only [hplace]
  refine ⟨by rw [hremoved], ?_, ⟨?_, fun m => ?_, ?_⟩⟩
  · rw [hremoved]
    exact Canvas.withdrawn_display s.completion s.inline c
  · rw [listeners_removeSuggestion]
    change w.editor.listeners.filter (· != n) = []
    simp [h.listeners]
  · intro hm
    have hshown := (dims_withdraw n s w).shown m hm
    by_cases hne : m = n
    · subst hne
      refine not_shows_beginClosing m w ?_
      exact (dims_removeSuggestion s fun _ => closing_beginClosing).shown m hm
    · exact h.others m hne hshown
  · rw [(beside_removeSuggestion n s _).blocked]
    exact h.unblocked

/-- To reject the session is to have the canvas as it was. -/
theorem rejectSession (reason : String) : (w.rejectSession n reason).1 = true ∧
    (w.rejectSession n reason).2.canvas = ⟨c.buffer, if s.inline then c.panel else ""⟩ ∧
    (w.rejectSession n reason).2.Alone := by
  obtain ⟨-, hcanvas, halone⟩ := h.removeSuggestion
  have hrejected : w.rejectSession n reason =
      (true, ((w.beginClosing n).removeSuggestion n s).2.finishRejected n s.uuid reason) := by
    unfold World.rejectSession
    rw [h.found]
    simp [h.unended]
  rw [hrejected]
  generalize ((w.beginClosing n).removeSuggestion n s).2 = w₁ at hcanvas halone ⊢
  have heditor := editor_finishRejected n s.uuid reason w₁
  refine ⟨rfl, ?_, ⟨?_, fun m hm => ?_, ?_⟩⟩
  · rw [World.canvas, heditor]
    exact hcanvas
  · rw [heditor, halone.listeners]
  · exact halone.hidden m ((dims_finishRejected ..).shown m hm)
  · rw [heditor, halone.unblocked]

/-- What the session does when it is told of something is done to it once. -/
theorem tellSessions (listen : Nat → World → World) :
    World.tellSessions listen w = listen n w := by
  simp [World.tellSessions, h.listeners]

/-- Before an edit is made the canvas is as it was. If the edit goes back the fetches are given up
too, and whoever hears of that might write into the text. -/
theorem clears {origin : String}
    (quiet : origin = "undo" ∨ origin = "redo" → s.cancelsFetches = true → w.Unwatched) :
    w.Clears run origin ⟨c.buffer, if s.inline then c.panel else ""⟩ := by
  have hsignal : (w.signal (.aboutToChange origin)).Suggesting c n s := h.congr rfl rfl
  have hheard : World.aboutToChange run origin w =
      hearChange run origin n (w.signal (.aboutToChange origin)) := by
    rw [World.aboutToChange, h.unblocked]
    exact hsignal.tellSessions _
  suffices hrest : (hearChange run origin n (w.signal (.aboutToChange origin))).canvas =
      ⟨c.buffer, if s.inline then c.panel else ""⟩ ∧
        (hearChange run origin n (w.signal (.aboutToChange origin))).Alone from
    ⟨hheard ▸ hrest.1, hheard ▸ hrest.2⟩
  rw [hearChange, hsignal.found]
  split
  · next hback =>
    simp only [Bool.and_eq_true, Bool.or_eq_true, decide_eq_true_eq, Option.any_some] at hback
    have hquiet : (w.signal (.aboutToChange origin)).Unwatched := quiet hback.1 hback.2
    have hapart := apart_cancelFetches run hquiet
    exact ((hsignal.congr hapart.sessions hapart.editor).rejectSession "edit").2
  · exact (hsignal.rejectSession "edit").2

/-- When the mode changes the one session that is shown takes its suggestion away. -/
theorem toggleMode (entering : Bool) :
    (toggleMode entering w).canvas = ⟨c.buffer, if s.inline then c.panel else ""⟩ ∧
      (toggleMode entering w).Alone := by
  have hheard : World.toggleMode entering w = hearToggle entering n w := by
    rw [World.toggleMode, h.unblocked]
    exact h.tellSessions _
  have hlog : (w.log .debug ("Rejecting completion before toggling source mode " ++
      (if entering then "on" else "off"))).Suggesting c n s := h.congr rfl rfl
  rw [hheard, hearToggle]
  exact (hlog.rejectSession "mode-toggle").2

/-- A key that is not the session's, or is pressed elsewhere, is left to others. -/
theorem keyPressed {key : String} (other : key ≠ s.acceptKey ∨ w.editor.focused = false) :
    keyPressed run key w = (false, w) := by
  have hkey : hearKey run key n (false, w) = (false, w) := by
    unfold hearKey
    simp only [h.found]
    rcases other with hk | hf
    · simp [hk]
    · simp [hf]
  simp [World.keyPressed, h.unblocked, h.listeners, hkey]

end Suggesting

end World

end GhostText
