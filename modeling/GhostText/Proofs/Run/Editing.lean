import GhostText.Proofs.Run.Leads
import GhostText.Suggestion.Deliver

/-!
# Edits and sessions are rows of steps

Whatever happens to the text of the editor happens in steps of the editor and of the sessions that
listen to it, and nothing is run meanwhile but the scripts of the subscribers.
-/

namespace GhostText

/-- No step of the controller by itself changes which session is live. -/
theorem ControllerStep.session {k : Regime} {c c' : Controller} (h : ControllerStep k c c') :
    c'.session = c.session := by
  cases h <;> rfl

namespace World

variable {k : Regime} {w w' : World} {c : Canvas}

/-! ## Sessions -/

/-- A step of a session is a row of one step. -/
theorem leads_session (h : SessionStep k w w') (hc : w.Closes w')
    (hn : k.Sound w → k.Modest → w.LeavesNeat w') : Leads k w w' where
  steps _ := .single (.session h)
  closes _ := hc
  neat := hn
  peer _ := h.beside.client ▸ .refl
  file _ _ := h.beside.sameFile

section Ending

variable {n : Nat} {s : Session} (hs : w.session? n = some s) (hopen : s.isOpen)

include hs hopen

/-- A session that begins to end and is turned down has ended. -/
theorem closes_finishRejected (h : (((w.beginClosing n).removeSuggestion n s).2).Closes w')
    (reason : String) : w.Closes (w'.finishRejected n s.uuid reason) := by
  refine Closes.ending hs hopen h (fun m hm => ?_) fun t ht => ?_
  · rw [session?_finishRejected, if_neg hm]
  · rw [session?_finishRejected, if_pos rfl] at ht
    obtain ⟨t, -, rfl⟩ := Option.map_eq_some_iff.1 ht
    rfl

theorem closes_finishAccepted (h : (((w.beginClosing n).removeSuggestion n s).2).Closes w') :
    w.Closes (w'.finishAccepted n s.uuid) := by
  refine Closes.ending hs hopen h (fun m hm => ?_) fun t ht => ?_
  · rw [session?_finishAccepted, if_neg hm]
  · rw [session?_finishAccepted, if_pos rfl] at ht
    obtain ⟨t, -, rfl⟩ := Option.map_eq_some_iff.1 ht
    rfl

/-- A session that was never shown is rejected. -/
theorem leads_discard (fresh : s.artifact = none) (reason : String) :
    Leads k w ((w.beginClosing n).finishRejected n s.uuid reason) := by
  have hclosing : (((w.beginClosing n).removeSuggestion n s).2).Closes (w.beginClosing n) :=
    .of_sessions (by simp [removeSuggestion, fresh])
  refine leads_session (.discard reason hs hopen fresh)
    (closes_finishRejected hs hopen hclosing reason) fun _ _ c h => ?_
  -- a session that can be ended is shown in a neat world
  simp [(h.offers hs hopen).2.artifact] at fresh

variable (shown : s.artifact.isSome = true)
  (h : Leads k (((w.beginClosing n).removeSuggestion n s).2) w')

include shown h

/-- A session is withdrawn, something else happens, and then the session comes to its end. -/
theorem leads_ended {w'' : World}
    (hend : ∀ s', w'.session? n = some s' → s'.closing = true → s'.isFinished = false →
      s'.uuid = s.uuid → SessionStep k w' w'')
    (hcloses : (((w.beginClosing n).removeSuggestion n s).2).Closes w' → w.Closes w'')
    (hneat : w.LeavesNeat w'') : Leads k w w'' := by
  refine .of_sound fun hsound => ?_
  have hwithdraw : SessionStep k w _ := .withdraw hs hopen shown
  have hsound₁ := (Step.session hwithdraw).sound hsound
  obtain ⟨s', hs', hclosing, hunfinished, huuid⟩ :=
    Closes.found hs hopen shown (h.closes hsound₁)
  have hlast := hend s' hs' hclosing hunfinished huuid
  exact {
    steps _ := ((Relation.ReflTransGen.single (.session hwithdraw)).trans (h.steps hsound₁)).tail
      (.session hlast)
    closes _ := hcloses (h.closes hsound₁)
    neat _ _ := hneat
    peer _ := by
      rw [hlast.beside.client, ← hwithdraw.beside.client]
      exact h.peer hsound₁
    file _ hk := hwithdraw.beside.sameFile.trans
      ((h.file hsound₁ hk).trans hlast.beside.sameFile) }

/-- A session is withdrawn, something else happens, and then it is rejected. -/
theorem leads_finishRejected {reason : String}
    (hneat : w.LeavesNeat (w'.finishRejected n s.uuid reason)) :
    Leads k w (w'.finishRejected n s.uuid reason) :=
  leads_ended hs hopen shown h (fun _ hs' hclosing hunfinished huuid =>
    huuid ▸ .fail reason hs' hclosing hunfinished)
    (fun hc => closes_finishRejected hs hopen hc reason) hneat

/-- A session is withdrawn, something else happens, and then it is accepted. -/
theorem leads_finishAccepted (hneat : w.LeavesNeat (w'.finishAccepted n s.uuid)) :
    Leads k w (w'.finishAccepted n s.uuid) :=
  leads_ended hs hopen shown h (fun _ hs' hclosing hunfinished huuid =>
    huuid ▸ .succeed hs' hclosing hunfinished) (fun hc => closes_finishAccepted hs hopen hc) hneat

end Ending

theorem leads_rejectSession (n : Nat) (reason : String) (w : World) :
    Leads k w (w.rejectSession n reason).2 := by
  refine (?_ : w.LeavesNeat _ → Leads k w _) (leavesNeat_rejectSession n reason w)
  unfold rejectSession
  cases hs : w.session? n with
  | none => exact fun _ => .refl w
  | some s =>
    dsimp only
    split
    · exact fun _ => .refl w
    · next hopen =>
      have hopen : s.isOpen := by simpa using hopen
      cases hshown : s.artifact with
      | none =>
        intro _
        simpa [removeSuggestion, hshown] using leads_discard hs hopen hshown reason
      | some a => exact leads_finishRejected hs hopen (by simp [hshown]) (.refl _)

theorem leads_rejectCurrent (reason : String) (w : World) :
    Leads k w (w.rejectCurrent reason).2 := by
  unfold rejectCurrent
  split
  · exact .refl w
  · exact leads_rejectSession ..

/-- A change of the controller on its own. -/
theorem leads_updateController {f : Controller → Controller}
    (h : ∀ c, ControllerStep k c (f c)) (w : World) : Leads k w (w.updateController f) := by
  unfold updateController
  cases hc : w.controller with
  | none =>
    have hw : { w with controller := none } = w := by rw [← hc]
    simpa only [Option.map_none, hw] using Leads.refl w
  | some c =>
    refine .single (.controller hc (h c)) ?_ rfl
    simp [scene, slot?, hc, (h c).session, canvas]

/-- A change of the text is noted and ends the live session. -/
theorem leads_noteChange (w : World) : Leads k w w.noteChange := by
  unfold noteChange
  cases w.controller with
  | none => exact .refl w
  | some c =>
    dsimp only
    split
    · exact .refl w
    · exact (leads_updateController (fun _ => .noteText _) w).trans
        ((leads_rejectCurrent ..).trans (leads_updateController (fun c => .noteChange _ _) _))

theorem closes_bring (completion : Completion) (c : Controller) (w : World) :
    w.Closes (w.bring completion c) := by
  let s := Session.propose completion c.config.inlineInSource c.config.acceptKey true true
  let w₁ := { w with sessions := w.sessions ++ [s] }
  let w₂ := w₁.updateController fun c => { c with session := some w.sessions.length }
  have hpropose : w.Closes w₁ := .propose rfl w
  have hslot : w₁.Closes w₂ := .of_sessions rfl
  have hstart : w₂.Closes (w₂.startSession w.sessions.length s) := by
    refine .startSession (fun t ht => ?_) s
    have ht : (w.sessions ++ [s])[w.sessions.length]? = some t := ht
    rw [List.getElem?_append_right (Nat.le_refl _), Nat.sub_self] at ht
    obtain rfl := List.mem_singleton.1 (List.mem_of_getElem? ht)
    rfl
  exact hpropose.trans (hslot.trans (hstart.trans (.of_sessions rfl)))

/-- A completion is shown in a session of its own, in the place of the live one. -/
theorem leads_present (he : k.engages) (completion : Completion) (w : World) :
    Leads k w (w.present completion) := by
  have hreject := leads_rejectCurrent (k := k) "newer-completion" w
  have hneat := leavesNeat_present completion w
  unfold present at hneat ⊢
  dsimp only at hneat ⊢
  generalize (w.rejectCurrent "newer-completion").2 = w₁ at hreject hneat ⊢
  split at hneat
  · exact hreject
  · next c hc =>
    have hstep : SessionStep k w₁ (w₁.bring completion c) := .bring completion hc he
    exact {
      steps hs := (hreject.steps hs).tail (.session hstep)
      closes hs := (hreject.closes hs).trans (closes_bring ..)
      neat _ _ := hneat
      peer hs := by
        have hpeer := hreject.peer hs
        rwa [← hstep.beside.client] at hpeer
      file hs hk := (hreject.file hs hk).trans hstep.beside.sameFile }

theorem leads_takeCompletion (he : k.engages) (completion : Completion) (w : World) :
    Leads k w (w.takeCompletion completion) := by
  unfold takeCompletion
  split
  · exact .refl w
  · split
    · exact leads_report rfl he ..
    · exact leads_present he completion w

theorem leads_startOnce {n : Nat} (ha : k.does (.session (.start n))) (w : World) :
    Leads k w (startOnce n w).2 := by
  unfold startOnce
  cases h : w.session? n with
  | none => exact .refl w
  | some s =>
    dsimp only
    split
    · exact .refl w
    · next hs =>
      simp only [Bool.or_eq_true, not_or, Bool.not_eq_true, Option.isSome_eq_false_iff,
        Option.isNone_iff_eq_none] at hs
      refine leads_session (.start h hs.1 hs.2 ha) (Closes.startSession (fun t ht => ?_) s)
        fun _ _ c hneat => ?_
      · obtain rfl := Option.some.inj (h.symm.trans ht)
        exact hs.1
      · exact absurd hs.1 (hneat.started h)

/-! ## What the sessions hear -/

section Running

variable {run : Runner} (hr : run.Steady k)

theorem leads_tellSessions {listen : Nat → World → World} (h : ∀ n w, Leads k w (listen n w))
    (w : World) : Leads k w (tellSessions listen w) := by
  refine Leads.foldl (fun w n _ => ?_) w
  split
  · exact h n w
  · exact .refl w

theorem leads_contentChanged (w : World) : Leads k w w.contentChanged := by
  unfold contentChanged
  split
  · exact .refl w
  · dsimp only
    split
    · exact (leads_signal rfl w).trans (leads_noteChange _)
    · exact leads_signal rfl w

theorem leads_toggleMode (entering : Bool) (w : World) : Leads k w (w.toggleMode entering) := by
  unfold toggleMode
  split
  · exact .refl w
  · exact leads_tellSessions (fun n w => (leads_log ..).trans (leads_rejectSession ..)) w

include hr

/-- A session that hears of a change ends; where the text is gone back over, fetches end before
it. -/
theorem leads_hearChange (origin : String) (n : Nat) (w : World) :
    Leads k w (hearChange run origin n w) := by
  unfold hearChange
  dsimp only
  split
  · exact (leads_cancelFetches hr w).trans (leads_rejectSession ..)
  · exact leads_rejectSession ..

theorem leads_aboutToChange (origin : String) (w : World) :
    Leads k w (aboutToChange run origin w) := by
  unfold aboutToChange
  split
  · exact .refl w
  · exact (leads_signal rfl w).trans (leads_tellSessions (leads_hearChange hr origin) _)

theorem leads_hearMove (n : Nat) (w : World) : Leads k w (hearMove run n w) := by
  unfold hearMove
  dsimp only
  split
  · exact (leads_cancelFetches hr w).trans (leads_rejectSession ..)
  · exact leads_rejectSession ..

theorem leads_cursorMoved (w : World) : Leads k w (cursorMoved run w) := by
  unfold cursorMoved
  split
  · exact .refl w
  · exact (leads_signal rfl w).trans (leads_tellSessions (leads_hearMove hr) _)

/-! ## Edits -/

omit hr in
/-- Once no session is live the text is edited. -/
theorem leads_edit {w₁ : World} {f : Buffer → Buffer} (htold : Leads k w w₁)
    (vacant : ∀ c, w.Neat c → w₁.slot? = none)
    (step : EditorStep k w₁.editor (w₁.updateBuffer f).editor) :
    Leads k w (w₁.updateBuffer f).contentChanged := by
  have hedit : Step k w₁ (w₁.updateBuffer f) := .editor step
  have hchanged : Leads k (w₁.updateBuffer f) (w₁.updateBuffer f).contentChanged :=
    leads_contentChanged _
  have hsame : w₁.SameFile (w₁.updateBuffer f) := .of_eq rfl rfl rfl
  exact {
    toMoves := (htold.toMoves.trans (.single hedit rfl rfl)).trans hchanged.toMoves
    neat hs hk c hc := by
      obtain ⟨c₁, h₁⟩ := htold.neat hs hk c hc
      have hvacant := vacant c hc
      exact ⟨_, h₁.trans (h₁.neat.edits hvacant ((h₁.neat.bare hvacant).edit f))⟩
    file hs hk := (htold.file hs hk).trans
      (hsame.trans (hchanged.file (hedit.sound ((htold.steps hs).sound hs)) hk)) }

/-- The sessions are told of an edit before it is made, and the controller afterwards. -/
theorem leads_insertText (text : Text) (origin : String) (w : World) :
    Leads k w (insertText run text origin w) :=
  leads_edit (leads_aboutToChange hr origin w)
    (fun _ h => (h.aboutToChange hr.idle origin).1) (.insert text)

theorem leads_replaceRange (range : UncheckedRange) (text : Text) (origin : String) (w : World) :
    Leads k w (replaceRange run range text origin w).2 := by
  have htold := leads_aboutToChange hr origin w
  have hvacant : ∀ c, w.Neat c → _ := fun _ h => (h.aboutToChange hr.idle origin).1
  unfold replaceRange
  dsimp only
  generalize aboutToChange run origin w = w₁ at htold hvacant ⊢
  cases ho : w₁.buffer.offsets range with
  | error f => exact htold
  | ok o => exact leads_edit htold hvacant (.replace text ho)

theorem leads_moveCaret (p : UncheckedPosition) (w : World) :
    Leads k w (moveCaret run p w).2 := by
  unfold moveCaret
  cases hb : w.buffer.moveTo p with
  | error f => exact .refl w
  | ok b =>
    have hmove : Leads k w (w.updateBuffer fun _ => b) := .step (.editor (.move hb)) rfl rfl
      fun _ _ => .of_like rfl (Canvas.like_moveTo hb) ⟨[], (List.append_nil _).symm⟩
    exact hmove.trans (leads_cursorMoved hr _)

theorem leads_undo (w : World) : Leads k w (undo run w).2 := by
  have htold := leads_aboutToChange hr "undo" w
  have hvacant : ∀ c, w.Neat c → _ := fun _ h => (h.aboutToChange hr.idle "undo").1
  unfold undo
  split
  · exact .refl w
  · dsimp only
    generalize aboutToChange run "undo" w = w₁ at htold hvacant ⊢
    cases hb : w₁.buffer.undo? with
    | none => exact htold
    | some b => exact leads_edit htold hvacant (.undo hb)

/-! ## Accepting -/

theorem leads_applyCompletion (c : Completion) (w : World) :
    Leads k w (applyCompletion run c w).2 := by
  unfold applyCompletion
  cases missingText? c w.buffer with
  | some rest => exact leads_insertText hr ..
  | none =>
    have hreplace := leads_replaceRange hr c.range.unchecked c.text.toList "api" w
    dsimp only
    generalize replaceRange run _ _ _ w = r at hreplace ⊢
    obtain ⟨_ | _, w₁⟩ := r
    · exact hreplace
    · exact hreplace.trans (leads_moveCaret hr ..)

/-- A session that is accepted puts its completion into the text and ends, or is turned down. -/
theorem leads_acceptSession (n : Nat) (w : World) : Leads k w (acceptSession run n w).2 := by
  refine (?_ : w.LeavesNeat _ → Leads k w _) (leavesNeat_acceptSession run n w)
  unfold acceptSession
  cases hs : w.session? n with
  | none => exact fun _ => .refl w
  | some s =>
    dsimp only
    split
    · exact fun _ => .refl w
    · next hopen =>
      have hopen : s.isOpen := by simpa using hopen
      cases hshown : s.artifact with
      | none =>
        have hw : (w.beginClosing n).removeSuggestion n s = (false, w.beginClosing n) := by
          simp [removeSuggestion, hshown]
        rw [hw]
        generalize "Suggestion " ++ s.uuid ++ " can no longer be located; rejecting it" = text
        -- the record could as well be made before the session begins to close
        have hdiscard : Leads k (w.log .warning text)
            (((w.log .warning text).beginClosing n).finishRejected n s.uuid "apply-failure") :=
          leads_discard (w := w.log .warning text) hs hopen hshown _
        exact fun _ => (leads_log .warning text w).trans hdiscard
      | some a =>
        have hshown : s.artifact.isSome = true := by simp [hshown]
        cases hw : (w.beginClosing n).removeSuggestion n s with
        | mk removed w₁ =>
          obtain rfl : ((w.beginClosing n).removeSuggestion n s).2 = w₁ := congrArg Prod.snd hw
          cases removed with
          | false => exact leads_finishRejected hs hopen hshown (leads_log ..)
          | true =>
            have happly := leads_applyCompletion hr s.completion
              ((w.beginClosing n).removeSuggestion n s).2
            dsimp only
            cases hx : applyCompletion run s.completion _ with
            | mk result w₂ =>
              rw [hx] at happly
              cases result with
              | error f =>
                exact leads_finishRejected hs hopen hshown (happly.trans (leads_log ..))
              | ok u => exact leads_finishAccepted hs hopen hshown happly

theorem leads_acceptCurrent (w : World) : Leads k w (acceptCurrent run w).2 := by
  unfold acceptCurrent
  split
  · exact .refl w
  · exact leads_acceptSession hr ..

/-- A key is offered to the sessions until one of them takes it. -/
theorem leads_hearKey (key : String) (n : Nat) (r : Bool × World) :
    Leads k r.2 (hearKey run key n r).2 := by
  obtain ⟨handled, w⟩ := r
  unfold hearKey
  dsimp only
  split
  · exact .refl w
  · split
    · exact .refl w
    · exact leads_acceptSession hr n w

theorem leads_keyPressed (key : String) (w : World) : Leads k w (keyPressed run key w).2 := by
  have htell : ∀ (l : List Nat) (r : Bool × World), Leads k r.2
      (l.foldl (fun r n => if r.2.editor.listeners.contains n then hearKey run key n r else r)
        r).2 := by
    intro l r
    refine List.foldlRecOn (motive := fun s : Bool × World => Leads k r.2 s.2) l _ (.refl r.2)
      fun s h n _ => h.trans ?_
    split
    · exact leads_hearKey hr key n s
    · exact .refl s.2
  unfold keyPressed
  split
  · exact .refl w
  · exact htell _ (false, w)

theorem leads_pressKey (key : String) (w : World) : Leads k w (pressKey run key w).2 := by
  have hpressed := leads_keyPressed hr key w
  unfold pressKey
  generalize keyPressed run key w = r at hpressed ⊢
  obtain ⟨_ | _, w₁⟩ := r
  · dsimp only
    split
    · exact hpressed.trans (leads_insertText hr ..)
    · split
      · exact hpressed.trans (leads_insertText hr ..)
      · exact hpressed
  · exact hpressed

/-! ## What a fetch brings -/

section Reading

variable (hreads : k.reads)

include hreads

theorem leads_deliverCompletion (completion : Completion) {sink : CompletionSink} {task id : Nat}
    (hsink : k.Awaits id (.fetched task sink)) (hs : w.Settled id) :
    Leads k w (deliverCompletion run completion sink w).2 := by
  cases sink with
  | nobody => exact .refl w
  | host c => exact leads_callHost hr hsink .completion _ hs
  | controller => exact leads_takeCompletion hreads.2 completion w

/-- A fetch that is answered leaves the table, and what it brings is shown or turned down. -/
theorem leads_fetchAnswered (task : Nat) (result : CompletionResult) {sink : CompletionSink}
    {id : Nat} (hsink : k.Awaits id (.fetched task sink)) (hs : w.Settled id) :
    Leads k w (fetchAnswered run task result sink w).2 := by
  have hreject : ∀ (uuids : List String) (w : World), Leads k w
      (if uuids.isEmpty then w else w.notifyRejected uuids) := by
    intro uuids w
    split
    · exact .refl w
    · exact leads_report rfl hreads.2 ..
  have hremove := (leads_removeFetch hreads.1 task w).trans (leads_reportIfIdle hr _)
  unfold fetchAnswered
  generalize w.removeFetch task = r at hremove ⊢
  obtain ⟨cancelled, w₁⟩ := r
  dsimp only at hremove ⊢
  cases cancelled with
  | true => exact hremove.trans (hreject ..)
  | false =>
    -- the call has settled by now, which is what the callback waits for
    refine .of_sound fun hsound => hremove.trans ?_
    have hset := (hremove.steps hsound).settled hsound hs
    simp only [Bool.false_eq_true, if_false]
    split
    · next first rest _ _ =>
      refine .of_sound fun hsound => ?_
      have hrest : Leads k (reportIfIdle run w₁) (if rest.isEmpty then reportIfIdle run w₁
          else (reportIfIdle run w₁).notifyRejected (rest.map Completion.uuid)) := by
        split
        · exact .refl _
        · exact leads_report rfl hreads.2 ..
      exact hrest.trans (leads_deliverCompletion hr hreads first hsink
        ((hrest.steps hsound).settled hsound hset))
    · exact .refl _

end Reading

end Running

end World

end GhostText
