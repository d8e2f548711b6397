import GhostText.Proofs.Editor.Suggesting
import GhostText.Host.Start

/-!
# A suggestion leaves no trace

Two runs are compared from one editor: in one a session is started first, in the other none. What
ends the session without accepting it leaves the same text, caret, history and panel in both, and so
does going back, unless the ghost text is all that there is to go back over.
-/

namespace GhostText

/-- The text that a key types which nobody has taken. -/
def typedText? (key : String) : Option Text :=
  if key = "Tab" then some ['\t']
  else
    match key.toList with
    | [c] => some [c]
    | _ => none

/-- What may be done to an editor and to the session it shows, without accepting that. -/
inductive Gesture where
  | reject (reason : String)
  | toggle (entering : Bool)
  | insert (text : Text) (origin : String)
  | replace (range : UncheckedRange) (text : Text) (origin : String)
  | press (key : String)

namespace Gesture

/-- Where no session was started there is nothing to be rejected. -/
def perform (run : Runner) (session : Option Nat) : Gesture → Act World Unit
  | .reject reason => fun w =>
    (.ok (), session.elim w fun n => (w.rejectSession n reason).2)
  | .toggle entering => fun w => (.ok (), World.toggleMode entering w)
  | .insert text origin => fun w => (.ok (), World.insertText run text origin w)
  | .replace range text origin => World.replaceRange run range text origin
  | .press key => fun w => (.ok (), (World.pressKey run key w).2)

/-- What ends a session without accepting it: a key does if it is not the session's own and types a
text. If an edit goes back the fetches are given up, so there nobody may hear of the status. -/
def Ends (s : Session) (w : World) : Gesture → Prop
  | .reject _ => True
  | .toggle _ => True
  | .insert _ origin => origin = "undo" ∨ origin = "redo" → s.cancelsFetches = true → w.Unwatched
  | .replace _ _ origin => origin = "undo" ∨ origin = "redo" → s.cancelsFetches = true → w.Unwatched
  | .press key => (key ≠ s.acceptKey ∨ w.editor.focused = false) ∧ (typedText? key).isSome = true

end Gesture

namespace World

variable {w w' : World} {n : Nat} {s : Session} {c : Canvas} (run : Runner)

/-- A key that nobody has taken types its text, if it has one. -/
theorem pressKey_untaken {key : String} (h : keyPressed run key w = (false, w)) :
    pressKey run key w =
      (false, (typedText? key).elim w fun text => insertText run text "input" w) := by
  unfold pressKey typedText?
  rw [h]
  dsimp only
  split
  · rfl
  · split <;> simp_all

/-- Going back while a suggestion is shown is going back where none is, unless the history was empty
and the suggestion is ghost text: there it fails, as what the ghost text has added to the history is
gone once the suggestion is taken away. -/
theorem undo_traceless_iff (alone : w.Alone) (found : w.session? n = some s)
    (fresh : s.artifact = none) (unended : s.isOpen)
    (quiet : s.cancelsFetches = true → w.Unwatched) :
    ((undo run (startOnce n w).2).1 = (undo run w).1 ∧
      (undo run (startOnce n w).2).2.buffer = (undo run w).2.buffer ↔
        ¬ (s.inline = true ∧ w.buffer.history = [])) ∧
    (s.inline = true ∧ w.buffer.history = [] →
      (undo run (startOnce n w).2).1 = .error .emptyHistory ∧
        (undo run (startOnce n w).2).2.buffer = w.buffer) := by
  obtain ⟨hout, hbuffer⟩ := alone.undo_eq run
  obtain ⟨hstarted, hsuggests⟩ := startOnce_suggesting alone found fresh unended
  have hquiet : (w.startSession n s).Unwatched ↔ w.Unwatched := by
    rw [Unwatched, (beside_startSession n s w).assistant, Unwatched]
  rw [hstarted, hout, hbuffer]
  have hclears : (w.startSession n s).Clears run "undo" _ :=
    hsuggests.clears run fun _ hcancels => hquiet.2 (quiet hcancels)
  generalize w.startSession n s = w₁ at hsuggests hclears ⊢
  have hshown : w₁.buffer = (w.canvas.display s.completion s.inline).2.buffer :=
    congrArg Canvas.buffer hsuggests.canvas
  have hundo := hclears.undo rfl
  dsimp only at hundo
  cases hh : w.buffer.history with
  | nil =>
    have hnone : w.buffer.undo? = none := by rw [Buffer.undo?, hh]
    have hundone : w.canvas.buffer.undo? = none := hnone
    cases hi : s.inline with
    | true =>
      -- showing the ghost text has filled the history, so the sessions are told
      have hfilled : w₁.buffer.history ≠ [] := by
        rw [hshown, hi]
        exact List.cons_ne_nil _ _
      have hfails := hundo hfilled
      rw [hundone] at hfails
      have htext : (undo run w₁).2.buffer = w.buffer := (congrArg Canvas.buffer hfails.2 :)
      rw [hfails.1, htext]
      exact ⟨by simp, fun _ => ⟨rfl, rfl⟩⟩
    | false =>
      have hempty : w₁.buffer = w.buffer := by
        rw [hshown, hi]
        rfl
      have hstays : undo run w₁ = (.ok false, w₁) := by
        rw [undo, hempty, hh]
        rfl
      simp [hstays, hempty, hnone]
  | cons t rest =>
    obtain ⟨b, hb⟩ : ∃ b, w.buffer.undo? = some b := by
      rw [Buffer.undo?, hh]
      exact ⟨_, rfl⟩
    have hundone : w.canvas.buffer.undo? = some b := hb
    have hfilled : w₁.buffer.history ≠ [] := by
      rw [hshown, Canvas.display]
      cases s.inline
      · simpa using hh ▸ List.cons_ne_nil t rest
      · exact List.cons_ne_nil _ _
    have hback := hundo hfilled
    rw [hundone] at hback
    have htext : (undo run w₁).2.buffer = b := congrArg Canvas.buffer hback.2.1
    rw [hb, hback.1, htext]
    exact ⟨by simp, by simp⟩

/-- Going back with ghost text in front of the caret. -/
theorem undo_traceless_before_caret :
    let t : Transport := ⟨true, [], .atOnce, false, []⟩
    let completion : Json := .obj [("uuid", .str "u"), ("text", .str "one\ntwo"),
      ("position", .obj [("line", .int 0), ("character", .int 1)])]
    let before : List Action := [.editor (.type (.str "x")),
      .session (.create completion true .null true)]
    ∃ w₀, startEditing 1 t ⟨.null, .null, [], []⟩ ⟨.str "ab", .str "/a.txt", .null, .lf⟩
        none none none none = .ok w₀ ∧
      let w := w₀.after before
      let shown := (startOnce 0 w).2
      shown.buffer.text = "aone\ntwobx".toList ∧
        (undo (runTo depthLimit) shown).1 = .ok true ∧
        (undo (runTo depthLimit) shown).2.buffer = ⟨"ab".toList, 2, [], .lf⟩ := by
  intro t completion before
  refine ⟨_, rfl, ?_⟩
  intro w shown
  have halone : w.Alone :=
    .of_unshown (by decide +kernel) (by decide +kernel) (by decide +kernel)
  obtain ⟨⟨-, hsame⟩, -⟩ := undo_traceless_iff (n := 0) (runTo depthLimit) halone
    (Option.eq_some_of_isSome (by decide +kernel)) (Option.isNone_iff_eq_none.1 (by decide +kernel))
    (by decide +kernel) fun _ => show ∀ s ∈ w.assistant.subscriptions, _ from by decide +kernel
  obtain ⟨hout, hbuffer⟩ := hsame fun h => absurd h.2 (by decide +kernel)
  exact ⟨by decide +kernel, hout.trans (eq_ok_of_toOption (by decide +kernel)),
    hbuffer.trans (by decide +kernel)⟩

/-- In an editor in which nothing was typed, going back from ghost text fails. -/
theorem undo_fails_under_ghost_text :
    let t : Transport := ⟨true, [], .atOnce, false, []⟩
    let completion : Json := .obj [("uuid", .str "u"), ("text", .str "abc"),
      ("displayText", .str "c"), ("position", .obj [("line", .int 0), ("character", .int 2)])]
    let create : Action := .session (.create completion true .null true)
    ∃ w₀, startEditing 1 t ⟨.null, .null, [], []⟩ ⟨.str "ab", .str "/a.txt", .null, .lf⟩
        none none none none = .ok w₀ ∧
      (undo (runTo depthLimit) (w₀.after [create])).1.toOption = some false ∧
      (undo (runTo depthLimit) (w₀.after [create, .session (.start 0)])).1.toOption = none := by
  intro t completion create
  refine ⟨_, rfl, ?_, ?_⟩ <;> decide +kernel

end World

end GhostText
