import GhostText.Proofs.Run.Frame

/-!
# How a session ends

A session that ends is withdrawn from the editor, and then it is told what has become of it. What
happens in between may end other sessions, but whoever has begun to end a session brings that to its
end: a session that is closing is left alone by everybody else, and none is left closing.
-/

namespace GhostText

theorem Session.isOpen_iff {s : Session} :
    s.isOpen = true ↔ s.isFinished = false ∧ s.closing = false := by
  simp [Session.isOpen]

/-- What may still be ended has not ended. -/
theorem Session.unfinished_of_isOpen {s : Session} (h : s.isOpen) : s.isFinished = false :=
  (Session.isOpen_iff.1 h).1

namespace World

variable {w w' w'' : World}

/-! ## The sessions after each part of an end -/

theorem session?_updateSession (m n : Nat) (f : Session → Session) (w : World) :
    (w.updateSession m f).session? n =
      if m = n then (w.session? n).map f else w.session? n := by
  simp only [session?, updateSession, List.getElem?_modify]
  split <;> simp

theorem session?_beginClosing (m n : Nat) (w : World) : (w.beginClosing m).session? n =
    if m = n then (w.session? n).map fun s => { s with closing := true } else w.session? n :=
  session?_updateSession m n (fun s => { s with closing := true }) w

theorem session?_beginClosing_self {n : Nat} {s : Session} (h : w.session? n = some s) :
    (w.beginClosing n).session? n = some { s with closing := true } := by
  rw [session?_beginClosing, if_pos rfl, h, Option.map_some]

@[simp] theorem sessions_announceEnd (n : Nat) (w : World) :
    (w.announceEnd n).sessions = w.sessions := by
  unfold announceEnd
  cases w.session? n with
  | none => rfl
  | some s =>
    dsimp only
    split <;> rfl

theorem editor_announceEnd (n : Nat) (w : World) : (w.announceEnd n).editor = w.editor := by
  unfold announceEnd
  cases w.session? n with
  | none => rfl
  | some s =>
    dsimp only
    split <;> rfl

theorem editor_finishRejected (n : Nat) (uuid reason : String) (w : World) :
    (w.finishRejected n uuid reason).editor = w.editor := by
  simp [finishRejected, editor_announceEnd, log, record, notifyRejected, updateSession]

theorem editor_finishAccepted (n : Nat) (uuid : String) (w : World) :
    (w.finishAccepted n uuid).editor = w.editor := by
  simp [finishAccepted, editor_announceEnd, log, record, notifyAccepted, updateSession]

theorem session?_finishRejected (m n : Nat) (uuid reason : String) (w : World) :
    (w.finishRejected m uuid reason).session? n = if m = n then
      (w.session? n).map fun s => { s with state := .rejected, reason := reason }
      else w.session? n := by
  rw [← session?_updateSession]
  simp [session?, finishRejected, log, record, notifyRejected]

theorem session?_finishAccepted (m n : Nat) (uuid : String) (w : World) :
    (w.finishAccepted m uuid).session? n = if m = n then
      (w.session? n).map fun s => { s with state := .accepted }
      else w.session? n := by
  rw [← session?_updateSession]
  simp [session?, finishAccepted, log, record, notifyAccepted]

/-- Taking a suggestion away changes nothing of its session but what is shown of it. -/
theorem session?_removeSuggestion (m n : Nat) (s : Session) (w : World) :
    (w.removeSuggestion m s).2.session? n = w.session? n ∨ m = n ∧ ∃ a,
      (w.removeSuggestion m s).2.session? n =
        (w.session? n).map fun s => { s with artifact := some a } := by
  unfold removeSuggestion
  cases s.artifact with
  | none => exact Or.inl rfl
  | some a =>
    dsimp only
    cases a.find? w.canvas with
    | none => exact Or.inl rfl
    | some place =>
      dsimp only
      have hsession := session?_updateSession m n
        (fun s => { s with artifact := some (a.remove w.canvas).1 }) w
      split at hsession
      · next hm => exact Or.inr ⟨hm, _, hsession⟩
      · exact Or.inl hsession

@[simp] theorem listeners_removeSuggestion (n : Nat) (s : Session) (w : World) :
    (w.removeSuggestion n s).2.editor.listeners = w.editor.listeners := by
  unfold removeSuggestion
  cases s.artifact with
  | none => rfl
  | some a =>
    dsimp only
    cases a.find? w.canvas <;> rfl

@[simp] theorem events_removeSuggestion (n : Nat) (s : Session) (w : World) :
    (w.removeSuggestion n s).2.events = w.events := by
  unfold removeSuggestion
  cases s.artifact with
  | none => rfl
  | some a =>
    dsimp only
    cases a.find? w.canvas <;> rfl

@[simp] theorem controller_removeSuggestion (n : Nat) (s : Session) (w : World) :
    (w.removeSuggestion n s).2.controller = w.controller := by
  unfold removeSuggestion
  cases s.artifact with
  | none => rfl
  | some a =>
    dsimp only
    cases a.find? w.canvas <;> rfl

section Withdrawn

variable {n : Nat} {s : Session}

/-- A session that is withdrawn is closing. -/
theorem session?_withdrawn (hs : w.session? n = some s) :
    ∃ a, (s.artifact.isSome = true → a.isSome = true) ∧
      (((w.beginClosing n).removeSuggestion n s).2).session? n =
        some { s with closing := true, artifact := a } := by
  have hclosing := session?_beginClosing_self hs
  rcases session?_removeSuggestion n n s (w.beginClosing n) with h | ⟨-, a, h⟩
  · exact ⟨_, id, h.trans hclosing⟩
  · exact ⟨some a, fun _ => rfl, by rw [h, hclosing, Option.map_some]⟩

/-- The end of one session leaves the others as they are. -/
theorem session?_withdrawn_ne (s : Session) (w : World) {m : Nat} (hm : m ≠ n) :
    (((w.beginClosing n).removeSuggestion n s).2).session? m = w.session? m := by
  have hclosing : (w.beginClosing n).session? m = w.session? m := by
    rw [session?_beginClosing, if_neg hm.symm]
  rcases session?_removeSuggestion n m s (w.beginClosing n) with h | ⟨he, -⟩
  · exact h.trans hclosing
  · exact absurd he.symm hm

end Withdrawn

/-! ## The sessions after a beginning -/

/-- A session that is proposed leaves the others where they are. -/
theorem session?_append {n : Nat} {t : Session} (h : w.session? n = some t) (s : Session) :
    ({ w with sessions := w.sessions ++ [s] } : World).session? n = some t :=
  (List.getElem?_append_left (List.getElem?_eq_some_iff.1 h).1).trans h

/-- A session is one of those before it or the one that was proposed. -/
theorem session?_of_append {n : Nat} {s t : Session}
    (h : ({ w with sessions := w.sessions ++ [s] } : World).session? n = some t) :
    w.session? n = some t ∨ n = w.sessions.length ∧ t = s := by
  simp only [session?, List.getElem?_append] at h
  split at h
  · exact Or.inl h
  · next hn =>
    obtain ⟨hlt, he⟩ := List.getElem?_eq_some_iff.1 h
    simp only [List.length_singleton, List.getElem_singleton] at hlt he
    exact Or.inr ⟨by omega, he.symm⟩

/-- A session that is started shows its completion, and the others are as they were. -/
theorem session?_startSession (m n : Nat) (s : Session) (w : World) :
    (w.startSession m s).session? n = if m = n then (w.session? n).map fun t =>
      { t with artifact := some (w.canvas.display s.completion s.inline).1,
               history := w.buffer.history }
      else w.session? n := by
  rw [session?, World.startSession]
  simp only [updateEditor, notifyShown, sessions_notify]
  exact session?_updateSession m n _ (w.updateCanvas fun _ => _)

@[simp] theorem listeners_startSession (n : Nat) (s : Session) (w : World) :
    (w.startSession n s).editor.listeners = w.editor.listeners ++ [n] := by
  simp [World.startSession, notifyShown, updateEditor, updateCanvas, updateSession]

@[simp] theorem controller_startSession (n : Nat) (s : Session) (w : World) :
    (w.startSession n s).controller = w.controller := by
  simp [startSession, notifyShown, updateEditor, updateCanvas, updateSession]

/-! ## Ends that have begun -/

/-- A session that was shown and is closing is left alone, and what begins to end has ended. -/
structure Closes (w w' : World) : Prop where
  kept : ∀ n s, w.session? n = some s → s.closing = true → s.artifact.isSome = true →
    w'.session? n = some s
  ended : ∀ n s, w'.session? n = some s → s.closing = true → s.isFinished = false →
    ∃ s₀, w.session? n = some s₀ ∧ s₀.closing = true ∧ s₀.isFinished = false

namespace Closes

theorem of_sessions (h : w'.sessions = w.sessions) : w.Closes w' := by
  have he : ∀ n, w'.session? n = w.session? n := fun n => by rw [session?, session?, h]
  exact ⟨fun n s hs _ _ => (he n).trans hs, fun n s hs hc hf => ⟨s, (he n).symm.trans hs, hc, hf⟩⟩

theorem refl (w : World) : w.Closes w := of_sessions rfl

theorem trans (h : w.Closes w') (h' : w'.Closes w'') : w.Closes w'' := by
  refine ⟨fun n s hs hc ha => h'.kept n s (h.kept n s hs hc ha) hc ha, fun n s hs hc hf => ?_⟩
  obtain ⟨s₁, hs₁, hc₁, hf₁⟩ := h'.ended n s hs hc hf
  exact h.ended n s₁ hs₁ hc₁ hf₁

/-- A session is added that is not closing. -/
theorem propose {s : Session} (hs : s.closing = false) (w : World) :
    w.Closes { w with sessions := w.sessions ++ [s] } := by
  refine ⟨fun n t ht _ _ => session?_append ht s, fun n t ht hc hf => ?_⟩
  rcases session?_of_append ht with ht | ⟨-, rfl⟩
  · exact ⟨t, ht, hc, hf⟩
  · simp [hs] at hc

/-- A session that was not shown is shown. -/
theorem startSession {n : Nat} (hn : ∀ s, w.session? n = some s → s.artifact = none)
    (s : Session) : w.Closes (w.startSession n s) := by
  refine ⟨fun m t ht hc ha => ?_, fun m t ht hc hf => ?_⟩
  · rw [session?_startSession, if_neg, ht]
    rintro rfl
    simp [hn t ht] at ha
  · rw [session?_startSession] at ht
    split at ht
    · obtain ⟨t₀, ht₀, rfl⟩ := Option.map_eq_some_iff.1 ht
      exact ⟨t₀, ht₀, hc, hf⟩
    · exact ⟨t, ht, hc, hf⟩

/-- A session is withdrawn, whatever happens then, and then it ends. -/
theorem ending {n : Nat} {s : Session} (hs : w.session? n = some s) (hopen : s.isOpen)
    (h : (((w.beginClosing n).removeSuggestion n s).2).Closes w')
    (hothers : ∀ m, n ≠ m → w''.session? m = w'.session? m)
    (hended : ∀ s, w''.session? n = some s → s.isFinished = true) : w.Closes w'' := by
  refine ⟨fun m t ht hc ha => ?_, fun m t ht hc hf => ?_⟩
  · have hm : m ≠ n := by
      rintro rfl
      obtain rfl := Option.some.inj (hs.symm.trans ht)
      simp [(Session.isOpen_iff.1 hopen).2] at hc
    rw [hothers m hm.symm]
    exact h.kept m t ((session?_withdrawn_ne s w hm).trans ht) hc ha
  · have hm : m ≠ n := by
      rintro rfl
      simp [hended t ht] at hf
    rw [hothers m hm.symm] at ht
    have hended := h.ended m t ht hc hf
    rwa [session?_withdrawn_ne s w hm] at hended

/-- The session that is ending is found again as it was withdrawn. -/
theorem found {n : Nat} {s : Session} (hs : w.session? n = some s) (hopen : s.isOpen)
    (shown : s.artifact.isSome = true)
    (h : (((w.beginClosing n).removeSuggestion n s).2).Closes w') :
    ∃ s', w'.session? n = some s' ∧ s'.closing = true ∧ s'.isFinished = false ∧
      s'.uuid = s.uuid := by
  obtain ⟨a, hsome, ha⟩ := session?_withdrawn hs
  have hunfinished : s.isFinished = false := Session.unfinished_of_isOpen hopen
  exact ⟨{ s with closing := true, artifact := a }, h.kept n _ ha rfl (hsome shown), rfl,
    hunfinished, rfl⟩

end Closes

end World

/-! ## What is told of an end -/

namespace World

/-- The message that a completion was accepted. -/
def acceptanceOf (uuid : String) : Json :=
  (Message.notification "notifyAccepted" (.obj [("uuid", .str uuid)])).toJson

/-- The message that completions were turned down. -/
def rejectionOf (uuids : List String) : Json :=
  (Message.notification "notifyRejected" (.obj [("uuids", .arr (uuids.map .str))])).toJson

end World

namespace Session

/-- What the server is told of a session that has ended. -/
def notice (s : Session) : Json :=
  if s.state = .accepted then World.acceptanceOf s.uuid else World.rejectionOf [s.uuid]

/-- What everybody else is told of it. -/
def finish (s : Session) : Signal :=
  if s.controlled then .sessionFinished s.uuid s.state s.reason else .sessionSettled s.uuid s.state

end Session

/-- A session has become what it ends as, and that was told. -/
structure World.Finishes (w w' : World) (n : Nat) (s : Session) : Prop where
  session : w'.session? n = some s
  others : ∀ m, n ≠ m → w'.session? m = w.session? m
  accepting : w'.transport.accepting = w.transport.accepting
  listeners : w'.editor.listeners = w.editor.listeners
  slot : w'.controller.map Controller.session = w.controller.map fun c =>
    if s.controlled = true ∧ c.session = some n then none else c.session
  told : ∃ es, (∀ e ∈ es, e.isAside) ∧ w'.events = w.events ++
    ((if w.transport.accepting then [.sent s.notice] else []) ++ (es ++ [.signalled s.finish]))

namespace World

variable {w w' w'' : World} {n : Nat} {s : Session}

/-- The end of a session is told, and the slot is free if it was the controller's. -/
theorem announceEnd_eq (hs : w.session? n = some s) : w.announceEnd n =
    (if s.controlled then w.releaseSession n else w).signal s.finish := by
  rw [announceEnd, hs]
  dsimp only
  unfold Session.finish
  split <;> rfl

/-- A session changes, the server is told, and then everybody else. -/
theorem finishes_announceEnd {f : Session → Session} {es : List Event}
    (hs : w.session? n = some s) (hadds : Adds (w.updateSession n f) w'
      ((if w.transport.accepting then [.sent (f s).notice] else []) ++ es))
    (ha : ∀ e ∈ es, e.isAside) : w.Finishes (w'.announceEnd n) n (f s) := by
  have hsession : ∀ m, (w.updateSession n f).session? m =
      if n = m then (w.session? m).map f else w.session? m := fun m => session?_updateSession ..
  obtain rfl : w' = _ := hadds
  rw [announceEnd_eq (s := f s)]
  rotate_left
  · exact (hsession n).trans (by rw [if_pos rfl, hs, Option.map_some])
  have hfound := (hsession n).trans (by rw [if_pos rfl, hs, Option.map_some])
  have hothers : ∀ m, n ≠ m → (w.updateSession n f).session? m = w.session? m :=
    fun m hm => (hsession m).trans (if_neg hm)
  cases hcontrolled : (f s).controlled with
  | false =>
    refine ⟨hfound, hothers, rfl, rfl, ?_, es, ha, ?_⟩
    · simp [signal, record, updateSession, hcontrolled]
    · simp [signal, record, updateSession]
  | true =>
    refine ⟨hfound, hothers, rfl, rfl, ?_, es, ha, ?_⟩
    · cases hc : w.controller with
      | none => simp [signal, record, updateSession, releaseSession, updateController, hc]
      | some c =>
        simp [signal, record, updateSession, releaseSession, updateController, hc, hcontrolled]
        split <;> rfl
    · simp [signal, record, updateSession, releaseSession, updateController]

/-- A session that is turned down is told of as rejected, to the server and to everybody else. -/
theorem finishes_rejected (hs : w.session? n = some s) (reason : String) :
    w.Finishes (w.finishRejected n s.uuid reason) n
      { s with state := .rejected, reason := reason } := by
  let f : Session → Session := fun s => { s with state := .rejected, reason := reason }
  obtain ⟨es, ha, he⟩ := post_adds (rejectionOf [s.uuid]) (w.updateSession n f)
  have hlog := he.trans (adds_record (.logged .debug
    ("Rejected completion " ++ s.uuid ++ " (" ++ reason ++ ")")) _)
  rw [List.append_assoc] at hlog
  exact finishes_announceEnd hs hlog (List.forall_mem_append.2 ⟨ha, by simp [Event.isAside]⟩)

/-- A session that is accepted is told of as such, to the server and to everybody else. -/
theorem finishes_accepted (hs : w.session? n = some s) :
    w.Finishes (w.finishAccepted n s.uuid) n { s with state := .accepted } := by
  let f : Session → Session := fun s => { s with state := .accepted }
  obtain ⟨es, ha, he⟩ := post_adds (acceptanceOf s.uuid) (w.updateSession n f)
  have hlog := he.trans (adds_record (.logged .debug ("Accepted completion " ++ s.uuid)) _)
  rw [List.append_assoc] at hlog
  exact finishes_announceEnd hs hlog (List.forall_mem_append.2 ⟨ha, by simp [Event.isAside]⟩)

end World

end GhostText
