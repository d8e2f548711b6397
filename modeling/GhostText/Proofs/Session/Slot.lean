import GhostText.Proofs.Editor.Ghost
import GhostText.Proofs.Session.Closing
import GhostText.Suggestion.Accept

/-!
# The controller's slot

Where only the controller starts sessions and the subscribers do nothing, the world between two
operations is neat: at most one session has not ended, it is the controller's, and the canvas is
another one on which its suggestion is displayed. Whatever ends that session takes its suggestion
away, and leaves the canvas it was displayed on to the edits that follow.
-/

namespace GhostText

/-! ## Canvases that differ in the caret -/

namespace Canvas

def caretAt (i : Nat) (c : Canvas) : Canvas := { c with buffer := { c.buffer with caret := i } }

/-- The same canvas but for the caret. -/
def Like (c c' : Canvas) : Prop := c.caretAt 0 = c'.caretAt 0

instance (c c' : Canvas) : Decidable (c.Like c') := inferInstanceAs (Decidable (_ = _))

variable {c c' : Canvas}

theorem like_iff : c.Like c' ↔ c.buffer.text = c'.buffer.text ∧
    c.buffer.history = c'.buffer.history ∧ c.buffer.eol = c'.buffer.eol ∧ c.panel = c'.panel := by
  simp [Like, caretAt, and_assoc]

theorem Like.stretch? (h : c.Like c') (offset : Nat) (text : Text) (removed : Bool) :
    Artifact.stretch? offset text removed c.buffer =
      Artifact.stretch? offset text removed c'.buffer := by
  simp only [Artifact.stretch?, (like_iff.1 h).1]

/-- Where the caret stands makes no difference to what of a suggestion is found. -/
theorem Like.find? (h : c.Like c') (a : Artifact) : a.find? c = a.find? c' := by
  obtain ⟨htext, -, heol, hpanel⟩ := like_iff.1 h
  cases a with
  | ghost offset text removed => simp only [Artifact.find?, h.stretch?, htext, heol]
  | panel range text => simp only [Artifact.find?, hpanel]

/-- The caret does not matter to what is left when a suggestion is taken away. -/
theorem Like.withdrawn (h : c.Like c') (a : Artifact) (history : List Snapshot) :
    (withdrawn (a, c) history).Like (withdrawn (a, c') history) := by
  obtain ⟨htext, -, heol, hpanel⟩ := like_iff.1 h
  rw [like_iff]
  cases a with
  | ghost offset text removed =>
    simp only [Canvas.withdrawn, Artifact.remove, h.stretch?]
    cases Artifact.stretch? offset text removed c'.buffer <;>
      simp [Buffer.spliceAside, htext, heol, hpanel]
  | panel range text =>
    simp only [Canvas.withdrawn, Artifact.remove, hpanel]
    split <;> simp [htext, heol, hpanel]

end Canvas

/-- A caret that is moved changes nothing but the caret. -/
theorem Buffer.moveTo_eq {b b' : Buffer} {p : UncheckedPosition} (h : b.moveTo p = .ok b') :
    b' = { b with caret := b'.caret } := by
  obtain ⟨i, -, hi⟩ := exists_of_bind_eq_ok h
  rw [← Except.ok.inj hi]

/-- A caret that moves leaves the canvas otherwise as it is. -/
theorem Canvas.like_moveTo {c : Canvas} {b : Buffer} {p : UncheckedPosition}
    (h : c.buffer.moveTo p = .ok b) : Canvas.Like { c with buffer := b } c := by
  rw [Buffer.moveTo_eq h, like_iff]
  exact ⟨rfl, rfl, rfl, rfl⟩

/-! ## Suggestions that were taken away -/

/-- Whether ghost text was taken out of the text again. What is shown in the panel is taken out of
the panel, and the suggestion keeps no note of it. -/
def Artifact.isGone : Artifact → Bool
  | .ghost _ _ removed => removed
  | .panel _ _ => true

/-- A suggestion that is taken away is gone, also if it could not be found. -/
theorem Artifact.isGone_remove (a : Artifact) (c : Canvas) : (a.remove c).1.isGone = true := by
  cases a <;> rfl

/-- The session started, and its ghost text was taken out again. -/
def Session.isGone (s : Session) : Bool := s.artifact.any Artifact.isGone

/-- A session of the controller that has ended, with its suggestion taken away. -/
structure Session.Ended (s : Session) : Prop where
  finished : s.isFinished = true
  controlled : s.controlled = true
  gone : s.isGone = true

namespace World

variable {w w' w'' : World} {n : Nat} {s s' : Session} {c c' c'' : Canvas}

/-- The number of the live session. -/
def slot? (w : World) : Option Nat := (w.controller.map Controller.session).join

theorem slot?_eq_bind (w : World) : w.slot? = w.controller.bind Controller.session := by
  unfold slot?
  cases w.controller <;> rfl

theorem slot?_updateController {f : Controller → Controller}
    (hf : ∀ c, (f c).session = c.session) (w : World) :
    (w.updateController f).slot? = w.slot? := by
  unfold slot? updateController
  cases w.controller with
  | none => rfl
  | some c => simp [hf]

/-- The subscribers do nothing when they are told something. -/
def Inert (w : World) : Prop := ∀ label script, (label, script) ∈ w.host.subscribers → script = []

/-! ## Edits where nothing is shown -/

/-- Where no session listens an edit is signalled and nothing else. -/
theorem aboutToChange_unheard (run : Runner) (listeners : w.editor.listeners = [])
    (unblocked : w.editor.blocked = false) (origin : String) :
    aboutToChange run origin w = w.signal (.aboutToChange origin) := by
  have hl : (w.signal (.aboutToChange origin)).editor.listeners = [] := listeners
  simp [aboutToChange, unblocked, tellSessions, hl]

theorem cursorMoved_unheard (run : Runner) (listeners : w.editor.listeners = [])
    (unblocked : w.editor.blocked = false) : cursorMoved run w = w.signal .cursorMoved := by
  have hl : (w.signal .cursorMoved).editor.listeners = [] := listeners
  simp [cursorMoved, unblocked, tellSessions, hl]

/-- No session can be ended and none listens, so nothing is on the canvas but the text. -/
structure Bare (w : World) : Prop where
  listeners : w.editor.listeners = []
  closed : ∀ n s, w.session? n = some s → s.isOpen = false
  unblocked : w.editor.blocked = false
  panel : w.canvas.panel = ""

/-- From a bare world to another one the text may be edited, and then it is told to have changed. -/
structure Edits (w w' : World) : Prop where
  host : w'.host = w.host
  sessions : w'.sessions = w.sessions
  slot : w'.slot? = w.slot?
  bare : w'.Bare
  told : ∃ es, w'.events = w.events ++ es ∧
    (Event.signalled .contentChanged ∈ es ∨ w'.canvas.Like w.canvas)

/-- If on either part of a way an edit was told or the canvas came to the same, so it is on the
whole. -/
theorem told_trans {c c' c'' : Canvas}
    (h : ∃ es, w'.events = w.events ++ es ∧
      (Event.signalled .contentChanged ∈ es ∨ c'.Like c))
    (h' : ∃ es, w''.events = w'.events ++ es ∧
      (Event.signalled .contentChanged ∈ es ∨ c''.Like c')) :
    ∃ es, w''.events = w.events ++ es ∧
      (Event.signalled .contentChanged ∈ es ∨ c''.Like c) := by
  obtain ⟨es, he, hedit⟩ := h
  obtain ⟨es', he', hedit'⟩ := h'
  refine ⟨es ++ es', by rw [he', he, List.append_assoc], ?_⟩
  rcases hedit with hedit | hlike
  · exact .inl (List.mem_append_left _ hedit)
  · exact hedit'.imp (List.mem_append_right _) fun h => h.trans hlike

theorem Edits.trans (h : w.Edits w') (h' : w'.Edits w'') : w.Edits w'' :=
  ⟨h'.host.trans h.host, h'.sessions.trans h.sessions, h'.slot.trans h.slot, h'.bare,
    told_trans h.told h'.told⟩

theorem Bare.refl (h : w.Bare) : w.Edits w :=
  ⟨rfl, rfl, rfl, h, [], (List.append_nil _).symm, .inr rfl⟩

namespace Bare

variable (h : w.Bare) (run : Runner)

include h

theorem rejectSession_eq (n : Nat) (reason : String) : w.rejectSession n reason = (false, w) := by
  unfold rejectSession
  cases hs : w.session? n with
  | none => rfl
  | some s =>
    dsimp only
    rw [if_pos (by simp [h.closed n s hs])]

theorem rejectCurrent_eq (reason : String) : (w.rejectCurrent reason).2 = w := by
  unfold rejectCurrent
  split
  · rfl
  · rw [h.rejectSession_eq]

/-- Where only events are added and the caret is moved, nothing is edited. -/
theorem quiet (hh : w'.host = w.host) (hs : w'.sessions = w.sessions) (hslot : w'.slot? = w.slot?)
    (hl : w'.editor.listeners = w.editor.listeners) (hb : w'.editor.blocked = w.editor.blocked)
    (hc : w'.canvas.Like w.canvas) (he : ∃ es, w'.events = w.events ++ es) : w.Edits w' where
  host := hh
  sessions := hs
  slot := hslot
  bare := ⟨hl.trans h.listeners, by simpa only [session?, hs] using h.closed,
    hb.trans h.unblocked, (Canvas.like_iff.1 hc).2.2.2.trans h.panel⟩
  told := he.imp fun _ he => ⟨he, .inr hc⟩

theorem signal (s : Signal) : w.Edits (w.signal s) :=
  h.quiet rfl rfl rfl rfl rfl rfl ⟨[.signalled s], rfl⟩

theorem log (level : LogLevel) (text : String) : w.Edits (w.log level text) :=
  h.quiet rfl rfl rfl rfl rfl rfl ⟨[.logged level text], rfl⟩

theorem aboutToChange_eq (origin : String) :
    aboutToChange run origin w = w.signal (.aboutToChange origin) :=
  aboutToChange_unheard run h.listeners h.unblocked origin

theorem cursorMoved_eq : cursorMoved run w = w.signal .cursorMoved :=
  cursorMoved_unheard run h.listeners h.unblocked

/-- The controller takes note of a change. -/
theorem noteChange : w.Edits w.noteChange := by
  unfold World.noteChange
  cases w.controller with
  | none => exact h.refl
  | some c =>
    dsimp only
    split
    · exact h.refl
    · have hnoted : ∀ (f : Controller → Controller) {w : World}, (∀ c, (f c).session = c.session) →
          w.Bare → w.Edits (w.updateController f) := fun f w hf h =>
        h.quiet rfl rfl (slot?_updateController hf w) rfl rfl rfl ⟨[], (List.append_nil _).symm⟩
      have hlatest := hnoted (fun c => { c with latest := w.buffer.text }) (fun _ => rfl) h
      rw [hlatest.bare.rejectCurrent_eq]
      exact hlatest.trans (hnoted _ (fun _ => rfl) hlatest.bare)

/-- The text is edited, and everybody is told. -/
theorem edit (f : Buffer → Buffer) : w.Edits (w.updateBuffer f).contentChanged := by
  have hbare : (w.updateBuffer f).Bare := ⟨h.listeners, h.closed, h.unblocked, h.panel⟩
  have hsignal := hbare.signal .contentChanged
  suffices hnote : ((w.updateBuffer f).signal .contentChanged).Edits
      (w.updateBuffer f).contentChanged by
    obtain ⟨es, he, -⟩ := hnote.told
    exact ⟨hnote.host, hnote.sessions, hnote.slot, hnote.bare, .signalled .contentChanged :: es,
      by rw [he]; simp [World.signal, record, updateBuffer, updateCanvas, updateEditor],
      .inl List.mem_cons_self⟩
  have hunblocked : (w.updateBuffer f).editor.blocked = false := h.unblocked
  unfold contentChanged
  simp only [hunblocked, Bool.false_eq_true, if_false]
  split
  · exact hsignal.bare.noteChange
  · exact hsignal.bare.refl

theorem insertText (text : Text) (origin : String) :
    w.Edits (insertText run text origin w) := by
  unfold World.insertText
  rw [h.aboutToChange_eq run]
  have htold := h.signal (.aboutToChange origin)
  exact htold.trans (htold.bare.edit _)

theorem replaceRange (range : UncheckedRange) (text : Text) (origin : String) :
    w.Edits (replaceRange run range text origin w).2 := by
  unfold World.replaceRange
  rw [h.aboutToChange_eq run]
  have htold := h.signal (.aboutToChange origin)
  dsimp only
  split
  · exact htold
  · exact htold.trans (htold.bare.edit _)

theorem moveCaret (p : UncheckedPosition) : w.Edits (moveCaret run p w).2 := by
  unfold World.moveCaret
  cases hb : w.buffer.moveTo p with
  | error f => exact h.refl
  | ok b =>
    have hmoved : w.Edits (w.updateBuffer fun _ => b) :=
      h.quiet rfl rfl rfl rfl rfl (Canvas.like_moveTo hb) ⟨[], (List.append_nil _).symm⟩
    dsimp only
    rw [hmoved.bare.cursorMoved_eq run]
    exact hmoved.trans (hmoved.bare.signal _)

theorem applyCompletion (c : Completion) : w.Edits (applyCompletion run c w).2 := by
  unfold World.applyCompletion
  cases missingText? c w.buffer with
  | some rest => exact h.insertText run rest "api"
  | none =>
    have hreplaced := h.replaceRange run c.range.unchecked c.text.toList "api"
    dsimp only
    generalize World.replaceRange run _ _ _ w = r at hreplaced ⊢
    obtain ⟨_ | _, w₁⟩ := r
    · exact hreplaced
    · exact hreplaced.trans (hreplaced.bare.moveCaret run _)

end Bare

/-! ## Neat worlds -/

structure Offers (w : World) (c : Canvas) (s : Session) : Prop where
  unended : s.isOpen
  controlled : s.controlled = true
  artifact : s.artifact = some (c.display s.completion s.inline).1
  history : s.history = c.buffer.history
  canvas : w.canvas.Like (c.display s.completion s.inline).2

/-- Every session is the controller's and has ended, but for the one in the slot, which displays its
suggestion on the canvas and alone listens to the editor. The subscribers do nothing. -/
structure Neat (w : World) (c : Canvas) : Prop where
  inert : w.Inert
  unblocked : w.editor.blocked = false
  panel : c.panel = ""
  listeners : w.editor.listeners = w.slot?.toList
  ended : ∀ n s, w.session? n = some s → w.slot? ≠ some n → s.Ended
  vacant : w.slot? = none → w.canvas.Like c
  live : ∀ n, w.slot? = some n → ∃ s, w.session? n = some s ∧ w.Offers c s

/-- Nothing is shown where there is no live session. -/
theorem Neat.bare (h : w.Neat c) (hslot : w.slot? = none) : w.Bare where
  listeners := by rw [h.listeners, hslot]; rfl
  closed n s hs := by
    have hended := h.ended n s hs (by simp [hslot])
    simp [Session.isOpen, hended.finished]
  unblocked := h.unblocked
  panel := (Canvas.like_iff.1 (h.vacant hslot)).2.2.2.trans h.panel

/-- The one session that can be ended is the live one. -/
theorem Neat.offers (h : w.Neat c) (hs : w.session? n = some s) (hopen : s.isOpen) :
    w.slot? = some n ∧ w.Offers c s := by
  have hslot : w.slot? = some n := by
    by_contra hne
    simp [Session.isOpen, (h.ended n s hs hne).finished] at hopen
  obtain ⟨s', hs', hoffers⟩ := h.live n hslot
  obtain rfl := Option.some.inj (hs.symm.trans hs')
  exact ⟨hslot, hoffers⟩

/-- Every session was started. -/
theorem Neat.started (h : w.Neat c) (hs : w.session? n = some s) : s.artifact ≠ none := by
  intro hnone
  by_cases hslot : w.slot? = some n
  · obtain ⟨s', hs', hoffers⟩ := h.live n hslot
    obtain rfl := Option.some.inj (hs.symm.trans hs')
    simp [hoffers.artifact] at hnone
  · have hgone := (h.ended n s hs hslot).gone
    simp [Session.isGone, hnone] at hgone

/-- The live session alone is told what happens in the editor. -/
theorem Neat.tellSessions_eq (h : w.Neat c) (listen : Nat → World → World) :
    tellSessions listen w = w.slot?.elim w fun n => listen n w := by
  have hlisteners := h.listeners
  unfold tellSessions
  cases hslot : w.slot? <;> simp [hlisteners, hslot]

/-! ## The end of the live session -/

/-- The live session was taken off the canvas, and it is still to be told what became of it. -/
structure Withdrawn (w : World) (n : Nat) (s : Session) : Prop where
  inert : w.Inert
  bare : w.Bare
  slot : w.slot? = some n
  found : w.session? n = some s
  controlled : s.controlled = true
  gone : s.isGone = true
  ended : ∀ m t, w.session? m = some t → w.slot? ≠ some m → t.Ended

/-- A session that is withdrawn stays so under edits of the text. -/
theorem Withdrawn.edits (h : w.Withdrawn n s) (he : w.Edits w') : w'.Withdrawn n s where
  inert := by rw [Inert, he.host]; exact h.inert
  bare := he.bare
  slot := he.slot.trans h.slot
  found := by rw [session?, he.sessions]; exact h.found
  controlled := h.controlled
  gone := h.gone
  ended m t ht hm := h.ended m t (by rwa [session?, he.sessions] at ht) (by rwa [he.slot] at hm)

/-- The suggestion of a session that displays it is found and taken away. -/
theorem Offers.removeSuggestion_eq (h : w.Offers c s) (n : Nat) :
    let a := (c.display s.completion s.inline).1
    (w.beginClosing n).removeSuggestion n s = (true,
      ((w.beginClosing n).updateSession n fun s => { s with
        artifact := some (a.remove w.canvas).1 }).updateCanvas
          fun _ => Canvas.withdrawn (a, w.canvas) s.history) := by
  intro a
  obtain ⟨place, hplace⟩ : ∃ place, a.find? (w.beginClosing n).canvas = some place := by
    rw [← Option.isSome_iff_exists]
    have hfound := c.find?_display s.completion s.inline
    rwa [← h.canvas.find?] at hfound
  unfold removeSuggestion
  rw [h.artifact]
  dsimp only
  rw [hplace]
  rfl

/-- Taking the suggestion away gives back the canvas. -/
theorem Offers.like_removeSuggestion (h : w.Offers c s) (panel : c.panel = "") (n : Nat) :
    ((w.beginClosing n).removeSuggestion n s).2.canvas.Like c := by
  have hback : Canvas.withdrawn (c.display s.completion s.inline) s.history = c := by
    rw [h.history]
    refine (Canvas.withdrawn_display s.completion s.inline c).trans ?_
    rw [← panel, ite_self]
  have hlike := h.canvas.withdrawn (c.display s.completion s.inline).1 s.history
  rw [hback] at hlike
  rw [h.removeSuggestion_eq n]
  exact hlike

/-- The live session is withdrawn without a trace of its suggestion. -/
theorem Offers.session?_removeSuggestion (h : w.Offers c s) (hs : w.session? n = some s) :
    ∃ s', ((w.beginClosing n).removeSuggestion n s).2.session? n = some s' ∧
      s'.closing = true ∧ s'.controlled = s.controlled ∧ s'.isGone = true ∧ s'.uuid = s.uuid := by
  rw [h.removeSuggestion_eq n]
  set a := (c.display s.completion s.inline).1
  refine ⟨{ s with closing := true, artifact := some (a.remove w.canvas).1 },
    (session?_updateSession n n _ (w.beginClosing n)).trans ?_, rfl, rfl,
    a.isGone_remove w.canvas, rfl⟩
  rw [if_pos rfl, session?_beginClosing_self hs]
  rfl

/-- The suggestion of the live session is found, and taking it away gives back the canvas. -/
theorem Neat.withdraw (h : w.Neat c) (hs : w.session? n = some s) (hopen : s.isOpen) :
    ((w.beginClosing n).removeSuggestion n s).1 = true ∧
      ((w.beginClosing n).removeSuggestion n s).2.canvas.Like c ∧
      ∃ s', ((w.beginClosing n).removeSuggestion n s).2.Withdrawn n s' ∧ s'.uuid = s.uuid := by
  obtain ⟨hslot, hoffers⟩ := h.offers hs hopen
  obtain ⟨s', hn, hclosing, hcontrolled, hgone, huuid⟩ := hoffers.session?_removeSuggestion hs
  have hcanvas := hoffers.like_removeSuggestion h.panel n
  have hbeside := beside_removeSuggestion n s (w.beginClosing n)
  have hslot' : ((w.beginClosing n).removeSuggestion n s).2.slot? = some n := by
    rw [slot?, controller_removeSuggestion]
    exact hslot
  have hended : ∀ m t, ((w.beginClosing n).removeSuggestion n s).2.session? m = some t →
      m ≠ n → t.Ended := by
    intro m t ht hm
    rw [session?_withdrawn_ne s w hm] at ht
    exact h.ended m t ht (by simpa [hslot] using hm.symm)
  have hbare : ((w.beginClosing n).removeSuggestion n s).2.Bare := by
    refine ⟨?_, fun m t ht => ?_, ?_, (Canvas.like_iff.1 hcanvas).2.2.2.trans h.panel⟩
    · rw [listeners_removeSuggestion]
      change w.editor.listeners.filter (· != n) = []
      simp [h.listeners, hslot]
    · by_cases hm : m = n
      · subst hm
        obtain rfl := Option.some.inj (hn.symm.trans ht)
        simp [Session.isOpen, hclosing]
      · simp [Session.isOpen, (hended m t ht hm).finished]
    · rw [hbeside.blocked]
      exact h.unblocked
  refine ⟨by rw [hoffers.removeSuggestion_eq n], hcanvas, s', ⟨?_, hbare, hslot', hn,
    hcontrolled.trans hoffers.controlled, hgone, fun m t ht hm => hended m t ht ?_⟩, huuid⟩
  · rw [Inert, hbeside.host]
    exact h.inert
  · rintro rfl
    exact hm hslot'

/-- The session that was taken off the canvas ends, and the slot is free. -/
theorem Withdrawn.ends (h : w.Withdrawn n s) (hf : w.Finishes w' n s') (hh : w'.host = w.host)
    (he : w'.editor = w.editor) (finished : s'.isFinished = true)
    (controlled : s'.controlled = s.controlled) (artifact : s'.artifact = s.artifact) :
    w'.slot? = none ∧ w'.Neat w.canvas := by
  have hslot : w'.slot? = none := by
    have hbind := (slot?_eq_bind w).symm.trans h.slot
    obtain ⟨c, hc, hn⟩ := Option.bind_eq_some_iff.1 hbind
    rw [slot?, hf.slot, hc]
    simp [controlled, h.controlled, hn]
  have hended : s'.Ended :=
    ⟨finished, controlled.trans h.controlled, by rw [Session.isGone, artifact]; exact h.gone⟩
  have hinert : w'.Inert := by rw [Inert, hh]; exact h.inert
  refine ⟨hslot, hinert, he ▸ h.bare.unblocked, h.bare.panel, ?_, fun m t ht _ => ?_,
    fun _ => ?_, ?_⟩
  · rw [he, h.bare.listeners, hslot]
    rfl
  · by_cases hm : n = m
    · subst hm
      obtain rfl := Option.some.inj (hf.session.symm.trans ht)
      exact hended
    · refine h.ended m t ((hf.others m hm).symm.trans ht) ?_
      rw [h.slot]
      simpa using hm
  · rw [World.canvas, he]
    rfl
  · simp [hslot]

/-! ## From a neat world to a neat one -/

/-- A neat world is left neat, and another canvas than before is underneath only if the text was
edited. -/
structure Neatly (w : World) (c : Canvas) (w' : World) (c' : Canvas) : Prop where
  neat : w'.Neat c'
  told : ∃ es, w'.events = w.events ++ es ∧ (Event.signalled .contentChanged ∈ es ∨ c'.Like c)

/-- Whatever canvas is underneath, a neat world is left neat. -/
def LeavesNeat (w w' : World) : Prop := ∀ c, w.Neat c → ∃ c', w.Neatly c w' c'

theorem Neatly.refl (h : w.Neat c) : w.Neatly c w c :=
  ⟨h, [], (List.append_nil _).symm, .inr rfl⟩

theorem Neatly.trans (h : w.Neatly c w' c') (h' : w'.Neatly c' w'' c'') : w.Neatly c w'' c'' :=
  ⟨h'.neat, told_trans h.told h'.told⟩

structure Scene where
  subscribers : List (String × Script)
  canvas : Canvas
  listeners : List Nat
  blocked : Bool
  sessions : List Session
  slot : Option Nat

def scene (w : World) : Scene where
  subscribers := w.host.subscribers
  canvas := w.canvas
  listeners := w.editor.listeners
  blocked := w.editor.blocked
  sessions := w.sessions
  slot := w.slot?

theorem Inert.of_scene (h : w.Inert) (hs : w'.scene = w.scene) : w'.Inert := by
  have hsubscribers : w'.host.subscribers = w.host.subscribers := congrArg Scene.subscribers hs
  rw [Inert, hsubscribers]
  exact h

/-- What moves at most the caret leaves everything neat. -/
theorem Neat.of_like (h : w.Neat c) (hs : w'.scene = { w.scene with canvas := w'.canvas })
    (hl : w'.canvas.Like w.canvas) : w'.Neat c := by
  have hsubscribers : w'.host.subscribers = w.host.subscribers := congrArg Scene.subscribers hs
  have hsessions : w'.sessions = w.sessions := congrArg Scene.sessions hs
  have hslot : w'.slot? = w.slot? := congrArg Scene.slot hs
  have hlisteners : w'.editor.listeners = w.editor.listeners := congrArg Scene.listeners hs
  have hblocked : w'.editor.blocked = w.editor.blocked := congrArg Scene.blocked hs
  refine ⟨?_, hblocked.trans h.unblocked, h.panel, ?_, ?_, ?_, ?_⟩
  · rw [Inert, hsubscribers]
    exact h.inert
  · rw [hlisteners, hslot, h.listeners]
  · simpa only [session?, hsessions, hslot] using h.ended
  · exact fun hnone => hl.trans (h.vacant (hslot.symm.trans hnone))
  · intro n hn
    obtain ⟨s, hs, ho⟩ := h.live n (hslot.symm.trans hn)
    exact ⟨s, by rw [session?, hsessions]; exact hs,
      ⟨ho.unended, ho.controlled, ho.artifact, ho.history, hl.trans ho.canvas⟩⟩

theorem Neat.of_scene (h : w.Neat c) (hs : w'.scene = w.scene) : w'.Neat c := by
  have hcanvas : w'.canvas = w.canvas := congrArg Scene.canvas hs
  exact h.of_like (by rw [hs, hcanvas]; rfl) (by rw [hcanvas]; rfl)

/-- What the host keeps does not matter as long as the subscribers do nothing. -/
theorem Neat.updateHost (h : w.Neat c) {f : Host → Host} (inert : (w.updateHost f).Inert) :
    (w.updateHost f).Neat c where
  inert := inert
  unblocked := h.unblocked
  panel := h.panel
  listeners := h.listeners
  ended := h.ended
  vacant := h.vacant
  live n hn := by
    obtain ⟨s, hs, ho⟩ := h.live n hn
    exact ⟨s, hs, ho.unended, ho.controlled, ho.artifact, ho.history, ho.canvas⟩

namespace LeavesNeat

theorem refl (w : World) : w.LeavesNeat w := fun c h => ⟨c, .refl h⟩

theorem trans (h : w.LeavesNeat w') (h' : w'.LeavesNeat w'') : w.LeavesNeat w'' := by
  intro c hc
  obtain ⟨c', hn⟩ := h c hc
  obtain ⟨c'', hn'⟩ := h' c' hn.neat
  exact ⟨c'', hn.trans hn'⟩

/-- What moves at most the caret and tells of it leaves everything neat. -/
theorem of_like (hs : w'.scene = { w.scene with canvas := w'.canvas })
    (hl : w'.canvas.Like w.canvas) (he : ∃ es, w'.events = w.events ++ es) : w.LeavesNeat w' :=
  fun c h => ⟨c, h.of_like hs hl, he.imp fun _ he => ⟨he, .inr rfl⟩⟩

theorem of_scene (hs : w'.scene = w.scene) (he : ∃ es, w'.events = w.events ++ es) :
    w.LeavesNeat w' :=
  fun c h => ⟨c, h.of_scene hs, he.imp fun _ he => ⟨he, .inr rfl⟩⟩

end LeavesNeat

/-- Once nothing is shown, edits leave everything neat. -/
theorem Neat.edits (h : w.Neat c) (hslot : w.slot? = none) (he : w.Edits w') :
    w.Neatly c w' w'.canvas := by
  have hslot' : w'.slot? = none := he.slot.trans hslot
  have hinert : w'.Inert := by rw [Inert, he.host]; exact h.inert
  refine ⟨⟨hinert, he.bare.unblocked, he.bare.panel, ?_, ?_, fun _ => rfl, by simp [hslot']⟩, ?_⟩
  · rw [he.bare.listeners, hslot']
    rfl
  · simpa only [session?, he.sessions, he.slot] using h.ended
  · obtain ⟨es, hes, hedit⟩ := he.told
    exact ⟨es, hes, hedit.imp_right fun hl => hl.trans (h.vacant hslot)⟩

/-- The live session is taken off the canvas, the text may be edited, and then the session ends. -/
theorem Neat.finishes {w₃ : World} (h : w.Neat c) (hs : w.session? n = some s) (hopen : s.isOpen)
    (he : ((w.beginClosing n).removeSuggestion n s).2.Edits w') {f : Session → Session}
    (hf : ∀ s₁, w'.session? n = some s₁ → s₁.uuid = s.uuid → w'.Finishes w₃ n (f s₁))
    (hhost : w₃.host = w'.host) (heditor : w₃.editor = w'.editor)
    (finished : ∀ s, (f s).isFinished = true) (controlled : ∀ s, (f s).controlled = s.controlled)
    (artifact : ∀ s, (f s).artifact = s.artifact) :
    w₃.slot? = none ∧ w.Neatly c w₃ w'.canvas := by
  obtain ⟨-, hcanvas, s₁, hwithdrawn, huuid⟩ := h.withdraw hs hopen
  have hedited := hwithdrawn.edits he
  have hfinishes := hf s₁ hedited.found huuid
  obtain ⟨hslot, hneat⟩ :=
    hedited.ends hfinishes hhost heditor (finished s₁) (controlled s₁) (artifact s₁)
  obtain ⟨es, hes, hedit⟩ := he.told
  obtain ⟨es', hes'⟩ : ∃ es', w₃.events = w'.events ++ es' :=
    hfinishes.told.elim fun _ h => ⟨_, h.2⟩
  refine ⟨hslot, hneat, es ++ es', ?_, hedit.imp (List.mem_append_left _) fun hl =>
    hl.trans hcanvas⟩
  rw [hes', hes, events_removeSuggestion, List.append_assoc]
  rfl

/-- Once the live session was rejected none is live, and nothing was edited. -/
theorem Neat.rejectSession (h : w.Neat c) (n : Nat) (reason : String) :
    (w.slot? = some n → (w.rejectSession n reason).2.slot? = none) ∧
      ∃ c', c'.Like c ∧ w.Neatly c (w.rejectSession n reason).2 c' := by
  have hstays : (∀ s, w.session? n = some s → s.isOpen = false) → w.slot? = some n → False := by
    intro hclosed hslot
    obtain ⟨s, hs, hoffers⟩ := h.live n hslot
    exact absurd hoffers.unended (by simp [hclosed s hs])
  unfold World.rejectSession
  cases hs : w.session? n with
  | none => exact ⟨fun hslot => (hstays (by simp [hs]) hslot).elim, c, rfl, .refl h⟩
  | some s =>
    dsimp only
    split
    · next hclosed =>
      exact ⟨fun hslot => (hstays (by simpa [hs] using hclosed) hslot).elim, c, rfl, .refl h⟩
    · next hopen =>
      have hopen : s.isOpen := by simpa using hopen
      obtain ⟨-, hcanvas, s₁, hwithdrawn, -⟩ := h.withdraw hs hopen
      obtain ⟨hslot, hneatly⟩ := h.finishes hs hopen hwithdrawn.bare.refl
        (f := fun s => { s with state := .rejected, reason := reason })
        (fun s₁ hs₁ huuid => huuid ▸ finishes_rejected hs₁ reason) (beside_finishRejected ..).host
        (editor_finishRejected ..) (fun _ => rfl) (fun _ => rfl) fun _ => rfl
      exact ⟨fun _ => hslot, _, hcanvas, hneatly⟩

/-- The slot of a neat world is freed, and the world is neat again. -/
theorem Neat.rejectCurrent (h : w.Neat c) (reason : String) :
    (w.rejectCurrent reason).2.slot? = none ∧ ∃ c', w.Neatly c (w.rejectCurrent reason).2 c' := by
  have hslot := w.slot?_eq_bind
  unfold World.rejectCurrent
  split
  · next hnone => exact ⟨hslot.trans hnone, c, .refl h⟩
  · next n hn =>
    obtain ⟨hfree, c', -, hneatly⟩ := h.rejectSession n reason
    exact ⟨hfree (hslot.trans hn), c', hneatly⟩

/-- A session that is rejected leaves a neat world neat. -/
theorem leavesNeat_rejectSession (n : Nat) (reason : String) (w : World) :
    w.LeavesNeat (w.rejectSession n reason).2 := fun _ h =>
  (h.rejectSession n reason).2.imp fun _ hc => hc.2

theorem leavesNeat_acceptSession (run : Runner) (n : Nat) (w : World) :
    w.LeavesNeat (acceptSession run n w).2 := by
  intro c h
  unfold acceptSession
  cases hs : w.session? n with
  | none => exact LeavesNeat.refl w c h
  | some s =>
    dsimp only
    split
    · exact LeavesNeat.refl w c h
    · next hopen =>
      have hopen : s.isOpen := by simpa using hopen
      obtain ⟨hfound, -, s₁, hwithdrawn, -⟩ := h.withdraw hs hopen
      have hedits := hwithdrawn.bare.applyCompletion run s.completion
      have hremoved : (w.beginClosing n).removeSuggestion n s =
          (true, ((w.beginClosing n).removeSuggestion n s).2) := Prod.ext hfound rfl
      rw [hremoved]
      dsimp only
      cases hx : applyCompletion run s.completion ((w.beginClosing n).removeSuggestion n s).2 with
      | mk result w₂ =>
        rw [hx] at hedits
        cases result with
        | error f =>
          have hlogged := hedits.trans (hedits.bare.log .warning
            ("Could not apply completion " ++ s.uuid ++ ": " ++ f.message))
          exact ⟨_, (h.finishes hs hopen hlogged
            (f := fun s => { s with state := .rejected, reason := "apply-failure" })
            (fun s₁ hs₁ huuid => huuid ▸ finishes_rejected hs₁ _) (beside_finishRejected ..).host
            (editor_finishRejected ..) (fun _ => rfl) (fun _ => rfl) fun _ => rfl).2⟩
        | ok u =>
          exact ⟨_, (h.finishes hs hopen hedits (f := fun s => { s with state := .accepted })
            (fun s₁ hs₁ huuid => huuid ▸ finishes_accepted hs₁) (beside_finishAccepted ..).host
            (editor_finishAccepted ..) (fun _ => rfl) (fun _ => rfl) fun _ => rfl).2⟩

/-! ## The beginning of a session -/

/-- The session that begins with a completion. -/
def brought (completion : Completion) (ctl : Controller) (w : World) : Session :=
  { Session.propose completion ctl.config.inlineInSource ctl.config.acceptKey true true with
    artifact := some (w.canvas.display completion ctl.config.inlineInSource).1
    history := w.buffer.history }

theorem session?_bring (completion : Completion) (ctl : Controller) (m : Nat) (w : World) :
    (w.bring completion ctl).session? m =
      if w.sessions.length = m then some (w.brought completion ctl) else w.session? m := by
  unfold bring
  refine (session?_startSession ..).trans ?_
  split
  · next hm =>
    subst hm
    exact congrArg (Option.map _) (List.getElem?_concat_length ..)
  · next hm =>
    change (w.sessions ++ [_])[m]? = w.sessions[m]?
    rw [List.getElem?_append]
    split
    · rfl
    · rw [List.getElem?_eq_none (by simpa using by omega), List.getElem?_eq_none (by omega)]

theorem controller_bring {ctl : Controller} (hc : w.controller = some ctl)
    (completion : Completion) : (w.bring completion ctl).controller =
      some { ctl with session := some w.sessions.length } := by
  refine (controller_startSession ..).trans ?_
  simp [updateController, hc]

/-- A session that the controller begins has its slot. -/
theorem slot?_bring {ctl : Controller} (hc : w.controller = some ctl) (completion : Completion) :
    (w.bring completion ctl).slot? = some w.sessions.length := by
  rw [slot?, controller_bring hc]
  rfl

theorem canvas_bring (completion : Completion) (ctl : Controller) (w : World) :
    (w.bring completion ctl).canvas =
      (w.canvas.display completion ctl.config.inlineInSource).2 := by
  simp [bring, World.startSession, canvas, signal, record, notifyShown, updateEditor, updateCanvas,
    updateSession, updateController, Session.propose]

/-- A session begins where none is live. -/
theorem Neat.bring (h : w.Neat c) (hslot : w.slot? = none) {ctl : Controller}
    (hc : w.controller = some ctl) (completion : Completion) :
    w.Neatly c (w.bring completion ctl) w.canvas := by
  have hbeside := beside_bring completion ctl w
  have hbare := h.bare hslot
  have hlive := slot?_bring hc completion
  have hlisteners : (w.bring completion ctl).editor.listeners = [w.sessions.length] := by
    refine (listeners_startSession ..).trans ?_
    exact congrArg (· ++ [_]) hbare.listeners
  refine ⟨⟨?_, ?_, hbare.panel, ?_, fun m t ht hm => ?_, ?_, fun m hm => ?_⟩, ?_⟩
  · rw [Inert, hbeside.host]
    exact h.inert
  · rw [hbeside.blocked]
    exact h.unblocked
  · rw [hlisteners, hlive]
    rfl
  · rw [hlive, Ne, Option.some.injEq] at hm
    rw [session?_bring, if_neg hm] at ht
    exact h.ended m t ht (by simp [hslot])
  · simp [hlive]
  · obtain rfl := Option.some.inj (hlive.symm.trans hm)
    exact ⟨_, by rw [session?_bring, if_pos rfl], rfl, rfl, rfl, rfl, by rw [canvas_bring]; rfl⟩
  · obtain ⟨es, he, -⟩ := hbeside.events
    exact ⟨es, he, .inr (h.vacant hslot)⟩

/-- A completion that is shown leaves a neat world neat. -/
theorem leavesNeat_present (completion : Completion) (w : World) :
    w.LeavesNeat (w.present completion) := by
  intro c h
  obtain ⟨hslot, c₁, h₁⟩ := h.rejectCurrent "newer-completion"
  unfold present
  dsimp only
  split
  · exact ⟨c₁, h₁⟩
  · next ctl hc => exact ⟨_, h₁.trans (h₁.neat.bring hslot hc completion)⟩

/-! ## Before an edit -/

section Idle

variable {run : Runner} (idle : ∀ w, (run (.script none []) w).2 = w)

include idle

theorem scene_callSubscriber (h : w.Inert) (notice : Notice) (s : Subscriber) :
    (callSubscriber run notice s w).2.scene = w.scene := by
  cases s with
  | host label =>
    have hscript : (w.host.subscribers.lookup label).getD [] = [] := by
      cases hl : w.host.subscribers.lookup label with
      | none => rfl
      | some script =>
        obtain ⟨before, after, hsubscribers, -⟩ := List.lookup_eq_some_iff.1 hl
        exact h label script (by simp [hsubscribers])
    unfold callSubscriber
    dsimp only
    rw [hscript, idle]
    rfl
  | terminal => cases notice <;> rfl

/-- Subscribers that do nothing leave the scene as it is. -/
theorem scene_tellSubscribers (h : w.Inert) (notice : Notice) :
    (tellSubscribers run notice w).scene = w.scene := by
  refine List.foldlRecOn (motive := fun w' : World => w'.scene = w.scene) _ _ rfl
    fun w' hw s _ => ?_
  have hcall := scene_callSubscriber idle (h.of_scene hw) notice s.subscriber
  unfold tellSubscription tell
  split
  · split
    · next hx => exact (hx ▸ hcall).trans hw
    · next hx => exact (hx ▸ hcall).trans hw
  · exact hw

theorem scene_changeStatus (h : w.Inert) (status : Status) :
    (changeStatus run status w).scene = w.scene := by
  unfold changeStatus
  dsimp only
  split
  · rfl
  · refine (scene_tellSubscribers idle (h.of_scene ?_) _).trans ?_ <;> rfl

/-- That fetches are given up changes nothing of what is shown. -/
theorem scene_cancelFetches (h : w.Inert) : (cancelFetches run w).scene = w.scene := by
  refine (scene_changeStatus idle (h.of_scene ?_) _).trans ?_ <;> rfl

/-- Once the sessions were told that the text is about to change none is live, and the canvas is as
it was without a suggestion. -/
theorem Neat.aboutToChange (h : w.Neat c) (origin : String) :
    (aboutToChange run origin w).slot? = none ∧ (aboutToChange run origin w).canvas.Like c := by
  rw [World.aboutToChange, h.unblocked]
  have h₁ : (w.signal (.aboutToChange origin)).Neat c := h.of_scene rfl
  generalize w.signal (.aboutToChange origin) = w₁ at h₁ ⊢
  simp only [Bool.false_eq_true, if_false]
  rw [h₁.tellSessions_eq]
  cases hslot : w₁.slot? with
  | none => exact ⟨hslot, h₁.vacant hslot⟩
  | some n =>
    have hreject : ∀ {w₂ : World}, w₂.scene = w₁.scene →
        (w₂.rejectSession n "edit").2.slot? = none ∧
          (w₂.rejectSession n "edit").2.canvas.Like c := by
      intro w₂ hs
      obtain ⟨hfree, c', hlike, hneatly⟩ := (h₁.of_scene hs).rejectSession n "edit"
      have hvacant := hfree ((congrArg Scene.slot hs).trans hslot)
      exact ⟨hvacant, (hneatly.neat.vacant hvacant).trans hlike⟩
    rw [Option.elim_some]
    unfold hearChange
    dsimp only
    split
    · exact hreject (scene_cancelFetches idle h₁.inert)
    · exact hreject rfl

end Idle

end World

end GhostText
