import GhostText.Proofs.Document.Places
import GhostText.Proofs.Run.Reticence
import GhostText.Proofs.Session.Slot

/-!
# The caret stays in the text

Whatever is typed, replaced, gone back over and shown as ghost text or in the panel, the caret
stands in the text, and so it does in every text that can be gone back to. Each change of the buffer
keeps that, then each step of a run, and with it all that a run comes by.
-/

namespace GhostText

def Snapshot.InText (s : Snapshot) : Prop := s.caret ≤ s.text.length

/-- The caret stands in the text, and in every text that can be gone back to. -/
structure Buffer.InText (b : Buffer) : Prop where
  caret : b.caret ≤ b.text.length
  history : ∀ s ∈ b.history, s.InText

/-! ## Places -/

/-- However a position is handed over, its offset lies in the text. -/
theorem UncheckedPosition.offset_le_length {b : LineBreak} {t : Text} {p : UncheckedPosition}
    {n : Nat} (h : p.offset b.text t = .ok n) : n ≤ t.length := by
  have heol : b.text.isEmpty = false := by cases b <;> rfl
  simp only [offset, heol, Bool.false_eq_true, if_false] at h
  split at h
  · obtain rfl := Except.ok.inj h
    exact Nat.zero_le _
  obtain ⟨line, -, h⟩ := exists_of_bind_eq_ok h
  have hplace : ∀ character, Text.offsetAt b.text t ⟨line, character⟩ ≤ t.length :=
    fun character => Text.offsetAt_le_length t ⟨line, character⟩
  simp only [Text.offsetAt_eq] at hplace
  split at h
  · obtain rfl := Except.ok.inj h
    exact Nat.le_refl _
  next l hl =>
  simp only [hl] at hplace
  split at h
  · obtain rfl := Except.ok.inj h
    exact Nat.le_trans (Nat.le_add_right ..) (hplace 0)
  · obtain ⟨character, -, h⟩ := exists_of_bind_eq_ok h
    obtain rfl := Except.ok.inj h
    exact hplace character

/-- A range that lies inside the text begins inside it. -/
theorem Text.start_le_length_of_checkedOffsets {b : LineBreak} {t : Text} {r : UncheckedRange}
    {o : Nat × Nat} (h : checkedOffsets b.text t r = .ok o) : o.1 ≤ t.length := by
  obtain ⟨-, -, h⟩ := exists_of_bind_eq_ok h
  obtain ⟨-, -, h⟩ := exists_of_bind_eq_ok h
  obtain ⟨start, hstart, h⟩ := exists_of_bind_eq_ok h
  obtain ⟨stop, -, h⟩ := exists_of_bind_eq_ok h
  obtain rfl := Except.ok.inj h
  exact UncheckedPosition.offset_le_length hstart

/-! ## Changes of the buffer -/

namespace Buffer

variable {b b' : Buffer}

/-- A buffer begins with its caret at the start of the text. -/
theorem inText_start (text : Text) (eol : LineBreak) : (start text eol).InText :=
  ⟨Nat.le_refl _, List.forall_mem_nil _⟩

namespace InText

variable (h : b.InText)

include h

theorem noted : ∀ s ∈ b.noted, s.InText := List.forall_mem_cons.2 ⟨h.caret, h.history⟩

theorem withHistory {history : List Snapshot} (hs : ∀ s ∈ history, s.InText) :
    ({ b with history := history } : Buffer).InText :=
  ⟨h.caret, hs⟩

/-- The caret behind a new text stands in the whole. -/
theorem splice {start : Nat} (hstart : start ≤ b.text.length) (stop : Nat) (text : Text) :
    (b.splice start stop text).InText := by
  refine ⟨?_, h.noted⟩
  simp only [Buffer.splice, Splice.apply, List.length_append, List.length_take]
  omega

/-- A caret behind a stretch moves with the text around it, but not in front of the stretch. -/
theorem spliceAside (start stop : Nat) (text : Text) : (b.spliceAside start stop text).InText := by
  refine ⟨?_, h.noted⟩
  have hcaret := h.caret
  simp only [Buffer.spliceAside, Splice.apply, List.length_append, List.length_take,
    List.length_drop]
  split <;> omega

theorem undo? (hb : b.undo? = some b') : b'.InText := by
  obtain ⟨text, caret, history, eol⟩ := b
  cases history with
  | nil => cases hb
  | cons s rest =>
    obtain rfl := Option.some.inj hb
    exact ⟨Nat.min_le_left .., (List.forall_mem_cons.1 h.history).2⟩

/-- However a position is written, the caret is moved to a place in the text. -/
theorem moveTo {p : UncheckedPosition} (hb : b.moveTo p = .ok b') : b'.InText := by
  obtain ⟨n, hn, hb⟩ := exists_of_bind_eq_ok hb
  obtain rfl := Except.ok.inj hb
  exact ⟨UncheckedPosition.offset_le_length hn, h.history⟩

end InText

end Buffer

/-! ## Suggestions on the canvas -/

/-- Taking a suggestion away leaves the caret in the text, also from inside the ghost text. -/
theorem Artifact.inText_remove {c : Canvas} (h : c.buffer.InText) (a : Artifact) :
    (a.remove c).2.buffer.InText := by
  cases a with
  | ghost offset text removed =>
    cases hs : stretch? offset text removed c.buffer with
    | none => simpa only [remove, hs] using h
    | some s => simpa only [remove, hs] using h.spliceAside s.1 s.2 []
  | panel range text =>
    simp only [remove]
    split <;> exact h

/-- A suggestion that is shown moves no caret out of the text. -/
theorem Canvas.inText_display {c : Canvas} (h : c.buffer.InText) (completion : Completion)
    (inline : Bool) : (c.display completion inline).2.buffer.InText := by
  cases inline with
  | false => exact h
  | true => exact h.spliceAside _ _ _

theorem World.canvas_startSession (n : Nat) (s : Session) (w : World) :
    (w.startSession n s).canvas = (w.canvas.display s.completion s.inline).2 := by
  simp [World.startSession, canvas, notifyShown, updateEditor, updateCanvas, updateSession]

/-! ## Steps -/

/-- The caret stands in the text, in what can be gone back to, and in what the sessions that were
started are to put back. -/
structure World.InText (w : World) : Prop where
  buffer : w.buffer.InText
  kept : ∀ n s, w.session? n = some s → s.artifact.isSome = true → ∀ t ∈ s.history, t.InText

namespace World

variable {w w' : World}

namespace InText

variable (h : w.InText)

include h

theorem congr (hb : w'.buffer = w.buffer) (hs : w'.sessions = w.sessions) : w'.InText := by
  refine ⟨hb ▸ h.buffer, fun n s hn => h.kept n s ?_⟩
  rwa [session?, hs] at hn

/-- The buffer changes, and the sessions keep what they are to put back. -/
theorem of_kept (hb : w'.buffer.InText) (hs : ∀ n s, w'.session? n = some s →
    s.artifact.isSome = true → ∃ s₀, w.session? n = some s₀ ∧ s₀.artifact.isSome = true ∧
      s.history = s₀.history) : w'.InText := by
  refine ⟨hb, fun n s hn ha => ?_⟩
  obtain ⟨s₀, hn₀, ha₀, hh⟩ := hs n s hn ha
  exact hh ▸ h.kept n s₀ hn₀ ha₀

theorem propose {s : Session} (fresh : s.artifact = none) :
    ({ w with sessions := w.sessions ++ [s] } : World).InText := by
  refine ⟨h.buffer, fun n t ht ha => ?_⟩
  rcases session?_of_append ht with ht | ⟨-, rfl⟩
  · exact h.kept n t ht ha
  · simp [fresh] at ha

/-- A session that is started keeps the history from before it. -/
theorem startSession (n : Nat) (s : Session) : (w.startSession n s).InText := by
  refine ⟨?_, fun m t ht ha => ?_⟩
  · change (w.startSession n s).canvas.buffer.InText
    rw [canvas_startSession]
    exact Canvas.inText_display h.buffer s.completion s.inline
  · rw [session?_startSession] at ht
    split at ht
    · obtain ⟨t₀, -, rfl⟩ := Option.map_eq_some_iff.1 ht
      exact h.buffer.history
    · exact h.kept m t ht ha

theorem bring (completion : Completion) (ctl : Controller) : (w.bring completion ctl).InText := by
  refine ⟨?_, fun m t ht ha => ?_⟩
  · change (w.bring completion ctl).canvas.buffer.InText
    rw [canvas_bring]
    exact Canvas.inText_display h.buffer completion ctl.config.inlineInSource
  · rw [session?_bring] at ht
    split at ht
    · obtain rfl := Option.some.inj ht
      exact h.buffer.history
    · exact h.kept m t ht ha

/-- Where a session ends the text and what can be gone back to stay. -/
theorem finish {n : Nat} {f : Session → Session} (hb : w'.buffer = w.buffer)
    (hs : ∀ m, w'.session? m = if n = m then (w.session? m).map f else w.session? m)
    (hf : ∀ s, (f s).artifact = s.artifact ∧ (f s).history = s.history) : w'.InText := by
  refine h.of_kept (hb ▸ h.buffer) fun m s hm ha => ?_
  rw [hs] at hm
  split at hm
  · obtain ⟨s₀, hm₀, rfl⟩ := Option.map_eq_some_iff.1 hm
    exact ⟨s₀, hm₀, (hf s₀).1 ▸ ha, (hf s₀).2⟩
  · exact ⟨s, hm, ha, rfl⟩

/-- The suggestion is taken away and the history from before it is put back. -/
theorem withdraw {n : Nat} {s : Session} (found : w.session? n = some s)
    (shown : s.artifact.isSome = true) : ((w.beginClosing n).removeSuggestion n s).2.InText := by
  refine h.of_kept ?_ fun m t ht ha => ?_
  · unfold removeSuggestion
    cases s.artifact with
    | none => exact h.buffer
    | some a =>
      cases hplace : a.find? (w.beginClosing n).canvas with
      | none => simp only [hplace]; exact h.buffer
      | some place =>
        simp only [hplace]
        exact (a.inText_remove (c := w.canvas) h.buffer).withHistory (h.kept n s found shown)
  · by_cases hm : m = n
    · subst hm
      obtain ⟨a, -, hwithdrawn⟩ := session?_withdrawn found
      obtain rfl := Option.some.inj (hwithdrawn.symm.trans ht)
      exact ⟨s, found, shown, rfl⟩
    · exact ⟨t, (session?_withdrawn_ne s w hm).symm.trans ht, ha, rfl⟩

end InText

end World

open World in
theorem SessionStep.inText {k : Regime} {w w' : World} (h : SessionStep k w w') (hw : w.InText) :
    w'.InText := by
  have hclosing : ∀ n, (w.beginClosing n).InText := fun n =>
    hw.finish rfl (session?_beginClosing n · w) fun _ => ⟨rfl, rfl⟩
  cases h with
  | propose fresh _ _ => exact hw.propose fresh
  | start _ _ _ _ => exact hw.startSession _ _
  | bring completion _ _ =>
    exact hw.bring completion _
  | withdraw found _ shown => exact hw.withdraw found shown
  | discard reason _ _ _ =>
    exact (hclosing _).finish (by rw [World.buffer, editor_finishRejected, World.buffer])
      (session?_finishRejected _ · _ reason _) fun _ => ⟨rfl, rfl⟩
  | fail reason _ _ _ =>
    exact hw.finish (by rw [World.buffer, editor_finishRejected, World.buffer])
      (session?_finishRejected _ · _ reason _) fun _ => ⟨rfl, rfl⟩
  | succeed _ _ _ =>
    exact hw.finish (by rw [World.buffer, editor_finishAccepted, World.buffer])
      (session?_finishAccepted _ · _ _) fun _ => ⟨rfl, rfl⟩

/-- Each change of the editor keeps the caret in the text, but for bare drawing on the canvas. -/
theorem EditorStep.inText {k : Regime} (hk : ∀ a, k.does a → a.draws = false) {e e' : Editor}
    (h : EditorStep k e e') (he : e.canvas.buffer.InText) : e'.canvas.buffer.InText := by
  cases h with
  | insert text => exact he.splice he.caret _ text
  | replace text inside =>
    exact he.splice (Text.start_le_length_of_checkedOffsets inside) _ text
  | move moved => exact he.moveTo moved
  | undo undone => exact he.undo? undone
  | draw c allowed draws => simp [hk _ allowed] at draws
  | focus _ => exact he
  | filePath _ => exact he
  | block _ _ => exact he

/-- Where the host does not draw in the editor by itself every step leaves the caret in the text. -/
theorem Step.inText {k : Regime} (hk : ∀ a, k.does a → a.draws = false) {w w' : World}
    (h : Step k w w') (hw : w.InText) : w'.InText := by
  cases h with
  | editor step => exact ⟨step.inText hk hw.buffer, hw.kept⟩
  | session step => exact step.inText hw
  | document step =>
    have frame := step.informs
    exact hw.congr (by rw [World.buffer, frame.editor, World.buffer]) frame.sessions
  | _ => exact ⟨hw.buffer, hw.kept⟩

/-- Along a row of steps the caret stays in the text. -/
theorem Steps.inText {k : Regime} (hk : ∀ a, k.does a → a.draws = false) {w w' : World}
    (h : Steps k w w') (hw : w.InText) : w'.InText := by
  induction h with
  | refl => exact hw
  | tail _ step ih => exact step.inText hk ih

/-! ## Runs -/

namespace World

variable {k : Conduct} {t : Transport} {setup : ClientSetup} {w : World}

theorem editor_withHandlers (setup : ClientSetup) (w : World) :
    (w.withHandlers setup).editor = w.editor := by
  refine withHandlers_keeps (P := fun v => v.editor = w.editor) (fun e _ v hv => ?_)
    (fun _ _ v hv => hv) rfl
  obtain ⟨w₁, ⟨es, rfl, -⟩, he⟩ := handleRequests_eq e.1 e.2 v
  rw [he]
  exact hv

/-- In the editor that a run begins with nothing was done yet. -/
theorem Begins.inText (h : Begins t setup w) (equips : k.Equips setup) : w.InText := by
  have hbuffer : w.buffer.InText := by
    refine h.keeps (P := fun w => w.buffer.InText) (fun _ _ _ => Buffer.inText_start [] .lf)
      (fun _ _ => Buffer.inText_start [] .lf) (fun w h => ?_)
      (fun _ editor _ => Buffer.inText_start editor.text.textOrEmpty.toList editor.eol)
      (fun _ _ _ _ _ h => h) fun _ _ h => h
    rw [buffer, editor_withHandlers]
    exact h
  exact ⟨hbuffer, fun n s hs => by simp [session?, (h.fresh equips).sessions] at hs⟩

/-- Whatever the host types, replaces, moves to, presses and goes back over, and whatever sessions
it starts, accepts and rejects, the caret stands in the text and in every text that can be gone back
to, after all these actions and in the midst of them. -/
theorem inText_after {actions : List Action} (begins : Begins t setup w)
    (equips : k.Equips setup) (leaves : ∀ a, k.does a → a.draws = false)
    (takes : k.Takes actions w) :
    (w.after actions).buffer.InText ∧ ∀ w', Steps k.free w w' → w'.buffer.InText := by
  have hkept : ∀ w', Steps k.free w w' → w'.buffer.InText := fun w' h =>
    (h.inText leaves (begins.inText equips)).buffer
  exact ⟨hkept _ ((leads_after takes).steps (begins.fresh equips).sound), hkept⟩

/-- A caret inside ghost text that is turned down, and the text gone back to. -/
theorem inText_after_ghost_text :
    let t : Transport := ⟨true, [], .atOnce, false, []⟩
    let completion : Json := .obj [("uuid", .str "u"), ("text", .str "one\ntwo"),
      ("position", .obj [("line", .int 0), ("character", .int 1)])]
    let shown : List Action := [.editor (.type (.str "b")),
      .session (.create completion true .null true), .session (.start 0),
      .editor (.blockSignals true), .editor (.move ⟨.int 1, .int 2⟩),
      .editor (.blockSignals false)]
    let rejected := shown ++ [.session (.reject 0 (.str "no"))]
    let actions := rejected ++ [.editor .undo, .editor (.move ⟨.int 9, .int 9⟩)]
    ∃ w, startEditing 1 t ⟨.null, .null, [], []⟩ ⟨.str "a", .str "/a.txt", .null, .lf⟩
        none none none none = .ok w ∧
      (w.after actions).buffer.InText ∧
      (w.after shown).buffer.text = "aone\ntwob".toList ∧ (w.after shown).buffer.caret = 7 ∧
      (w.after rejected).buffer = ⟨"ab".toList, 1, [⟨"a".toList, 1⟩], .lf⟩ ∧
      (w.after actions).buffer = .start "a".toList .lf := by
  intro t completion shown rejected actions
  refine ⟨_, rfl, ?_, by decide +kernel⟩
  have begins : Begins t ⟨.null, .null, [], []⟩ _ :=
    .assistant 1 ⟨.str "a", .str "/a.txt", .null, .lf⟩ none none none none rfl
  exact (inText_after (k := .ofKind fun a => !a.draws) begins (by simp [Conduct.Equips])
    (fun a ha => by simpa [Conduct.ofKind] using ha)
    (Conduct.takes_ofKind (by decide +kernel) _)).1

end World

end GhostText
