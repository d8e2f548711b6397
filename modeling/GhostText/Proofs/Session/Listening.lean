import GhostText.Proofs.Run.Runs

/-!
# Sessions that are shown listen

Whatever happens, a session whose completion is shown hears of the editor until it ends. So, once
the sessions have been told that the text is about to change, none is shown any more.
-/

namespace GhostText

/-- The completion is shown, and the session can still be ended. -/
def Session.isShown (s : Session) : Bool := s.isOpen && s.artifact.isSome

/-- The session of a number is shown. -/
def World.Shows (w : World) (n : Nat) : Prop := ∃ s, w.session? n = some s ∧ s.isShown

/-- Every session that is shown hears of the editor. -/
def World.Attentive (w : World) : Prop := ∀ n, w.Shows n → n ∈ w.editor.listeners

/-- Of the sessions that were shown some may have ended, and the others hear of the editor as they
did. -/
structure World.Dims (w w' : World) : Prop where
  shown : ∀ n, w'.Shows n → w.Shows n
  listening : ∀ n, w'.Shows n → n ∈ w.editor.listeners → n ∈ w'.editor.listeners

namespace World

variable {w w' w'' : World}

theorem Dims.refl (w : World) : w.Dims w := ⟨fun _ h => h, fun _ _ h => h⟩

theorem Dims.trans (h : w.Dims w') (h' : w'.Dims w'') : w.Dims w'' :=
  ⟨fun n hn => h.shown n (h'.shown n hn),
    fun n hn hl => h'.listening n hn (h.listening n (h'.shown n hn) hl)⟩

/-- Where fewer are shown and no fewer listen, whoever is shown still listens. -/
theorem Dims.attentive (h : w.Dims w') (ha : w.Attentive) : w'.Attentive :=
  fun n hn => h.listening n hn (ha n (h.shown n hn))

theorem dims_of_eq (hs : w'.sessions = w.sessions)
    (hl : w'.editor.listeners = w.editor.listeners) : w.Dims w' := by
  have hshows : ∀ n, w'.Shows n → w.Shows n := by
    intro n h
    rwa [Shows, session?, hs] at h
  exact ⟨hshows, fun n _ h => by rwa [hl]⟩

theorem dims_record (e : Event) (w : World) : w.Dims (w.record e) := dims_of_eq rfl rfl

theorem dims_updateController (f : Controller → Controller) (w : World) :
    w.Dims (w.updateController f) :=
  dims_of_eq rfl rfl

/-! ## The parts of the end of a session -/

theorem dims_updateSession {n : Nat} {f : Session → Session}
    (hf : ∀ s, w.session? n = some s → (f s).isShown → s.isShown) :
    w.Dims (w.updateSession n f) := by
  refine ⟨?_, fun _ _ h => h⟩
  rintro m ⟨s, hs, hshown⟩
  rw [session?_updateSession] at hs
  split at hs
  · next hm =>
    subst hm
    obtain ⟨s₀, hs₀, rfl⟩ := Option.map_eq_some_iff.1 hs
    exact ⟨s₀, hs₀, hf s₀ hs₀ hshown⟩
  · exact ⟨s, hs, hshown⟩

theorem closing_beginClosing {n : Nat} {s : Session}
    (h : (w.beginClosing n).session? n = some s) : s.closing = true := by
  have h : (w.updateSession n fun s => { s with closing := true }).session? n = some s := h
  rw [session?_updateSession, if_pos rfl] at h
  obtain ⟨s₀, -, rfl⟩ := Option.map_eq_some_iff.1 h
  rfl

/-- A session that has begun to end is not shown any more. -/
theorem not_shows_beginClosing (n : Nat) (w : World) : ¬ (w.beginClosing n).Shows n := by
  rintro ⟨s, hs, hshown⟩
  simp [Session.isShown, Session.isOpen, closing_beginClosing hs] at hshown

theorem dims_beginClosing (n : Nat) (w : World) : w.Dims (w.beginClosing n) := by
  have hclose : w.Dims (w.updateSession n fun s => { s with closing := true }) :=
    dims_updateSession fun s _ h => by simp [Session.isShown, Session.isOpen] at h
  refine ⟨hclose.shown, fun m hm hl => ?_⟩
  have hne : m ≠ n := by
    rintro rfl
    exact not_shows_beginClosing m w hm
  simpa [beginClosing, stopListening, updateEditor, updateSession] using ⟨hl, hne⟩

/-- The suggestion of a session that is closing can be taken away. -/
theorem dims_removeSuggestion {n : Nat} (s : Session)
    (h : ∀ s, w.session? n = some s → s.closing = true) :
    w.Dims (w.removeSuggestion n s).2 := by
  unfold removeSuggestion
  cases s.artifact with
  | none => exact .refl w
  | some a =>
    dsimp only
    cases a.find? w.canvas with
    | none => exact .refl w
    | some place =>
      refine (dims_updateSession (n := n) ?_).trans (dims_of_eq rfl rfl)
      intro s hs hshown
      simp [Session.isShown, Session.isOpen, h s hs] at hshown

theorem dims_notify (method : String) (params : Json) (w : World) :
    w.Dims (w.notify method params) :=
  dims_of_eq (sessions_notify ..) (by rw [editor_notify])

theorem dims_announceEnd (n : Nat) (w : World) : w.Dims (w.announceEnd n) := by
  unfold announceEnd
  cases w.session? n with
  | none => exact .refl w
  | some s =>
    dsimp only
    split <;> exact dims_of_eq rfl rfl

theorem dims_finishRejected (n : Nat) (uuid reason : String) (w : World) :
    w.Dims (w.finishRejected n uuid reason) := by
  refine (dims_updateSession (n := n) ?_).trans ((dims_notify ..).trans
    ((dims_record ..).trans (dims_announceEnd ..)))
  intro s _ h
  simp [Session.isShown, Session.isOpen, Session.isFinished] at h

theorem dims_finishAccepted (n : Nat) (uuid : String) (w : World) :
    w.Dims (w.finishAccepted n uuid) := by
  refine (dims_updateSession (n := n) ?_).trans ((dims_notify ..).trans
    ((dims_record ..).trans (dims_announceEnd ..)))
  intro s _ h
  simp [Session.isShown, Session.isOpen, Session.isFinished] at h

/-! ## The end of a session -/

/-- A session that is withdrawn is shown no more and listens no more. -/
theorem dims_withdraw (n : Nat) (s : Session) (w : World) :
    w.Dims ((w.beginClosing n).removeSuggestion n s).2 :=
  (dims_beginClosing n w).trans (dims_removeSuggestion s fun _ => closing_beginClosing)

/-- A session that is rejected is not shown any more. -/
theorem rejectSession_dims (n : Nat) (reason : String) (w : World) :
    w.Dims (w.rejectSession n reason).2 ∧ ¬ (w.rejectSession n reason).2.Shows n := by
  unfold rejectSession
  cases hs : w.session? n with
  | none => exact ⟨.refl w, by simp [Shows, hs]⟩
  | some s =>
    dsimp only
    split
    · next hopen =>
      refine ⟨.refl w, ?_⟩
      rintro ⟨s', hs', hshown⟩
      obtain rfl := Option.some.inj (hs.symm.trans hs')
      simp_all [Session.isShown]
    · have hrest : (w.beginClosing n).Dims
          ((((w.beginClosing n).removeSuggestion n s).2).finishRejected n s.uuid reason) :=
        (dims_removeSuggestion s fun _ => closing_beginClosing).trans (dims_finishRejected ..)
      exact ⟨(dims_beginClosing n w).trans hrest,
        fun h => not_shows_beginClosing n w (hrest.shown n h)⟩

/-- The end of the live session leaves the others listening. -/
theorem dims_rejectCurrent (reason : String) (w : World) : w.Dims (w.rejectCurrent reason).2 := by
  unfold rejectCurrent
  split
  · exact .refl w
  · exact (rejectSession_dims ..).1

theorem dims_noteChange (w : World) : w.Dims w.noteChange := by
  unfold noteChange
  cases w.controller with
  | none => exact .refl w
  | some c =>
    dsimp only
    split
    · exact .refl w
    · exact (dims_updateController ..).trans
        ((dims_rejectCurrent ..).trans (dims_updateController ..))

/-! ## The beginning of a session -/

theorem Attentive.propose (h : w.Attentive) {s : Session} (fresh : s.artifact = none) :
    Attentive { w with sessions := w.sessions ++ [s] } := by
  rintro n ⟨s', hs', hshown⟩
  rcases session?_of_append hs' with hs' | ⟨-, rfl⟩
  · exact h n ⟨s', hs', hshown⟩
  · simp [Session.isShown, fresh] at hshown

/-- A session that is started listens. -/
theorem Attentive.startSession (h : w.Attentive) (n : Nat) (s : Session) :
    (w.startSession n s).Attentive := by
  rintro m ⟨t, ht, hshown⟩
  rw [listeners_startSession, List.mem_append, List.mem_singleton]
  rw [session?_startSession] at ht
  split at ht
  · next hm => exact Or.inr hm.symm
  · exact Or.inl (h m ⟨t, ht, hshown⟩)

/-- A session that the controller begins listens as soon as it is shown. -/
theorem Attentive.bring (h : w.Attentive) (completion : Completion) (c : Controller) :
    (w.bring completion c).Attentive := by
  unfold World.bring
  dsimp only
  refine (dims_record ..).attentive (Attentive.startSession ?_ _ _)
  exact (dims_updateController ..).attentive (h.propose rfl)

end World

/-! ## Every step -/

variable {k : Regime} {w w' : World}

/-- Whatever step a session takes, whoever is shown listens. -/
theorem SessionStep.attentive (h : SessionStep k w w') (ha : w.Attentive) : w'.Attentive := by
  cases h with
  | propose fresh _ _ => exact ha.propose fresh
  | start _ _ _ _ => exact ha.startSession _ _
  | bring completion _ _ => exact ha.bring completion _
  | withdraw _ _ _ => exact (World.dims_withdraw ..).attentive ha
  | discard reason _ _ _ =>
    exact ((World.dims_beginClosing ..).trans (World.dims_finishRejected ..)).attentive ha
  | fail reason _ _ _ => exact (World.dims_finishRejected ..).attentive ha
  | succeed _ _ _ => exact (World.dims_finishAccepted ..).attentive ha

theorem Step.attentive (h : Step k w w') (ha : w.Attentive) : w'.Attentive := by
  cases h with
  | session step => exact step.attentive ha
  | document step =>
    exact (World.dims_of_eq step.informs.sessions (by rw [step.informs.editor])).attentive ha
  | editor step =>
    cases step <;> exact (World.dims_of_eq (w := w) rfl rfl).attentive ha
  | _ => exact (World.dims_of_eq (w := w) rfl rfl).attentive ha

/-- Along a row of steps whoever is shown listens. -/
theorem Steps.attentive (h : Steps k w w') (ha : w.Attentive) : w'.Attentive := by
  induction h with
  | refl => exact ha
  | tail _ step ih => exact step.attentive ih

end GhostText
