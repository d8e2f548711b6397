import GhostText.Proofs.Session.Ending

/-!
# The end of a session is final

Only sessions that are shown hear of the editor. So from the moment a session begins to end it hears
of nothing any more, and what it tells when it has ended is the last that is heard of it.
-/

namespace GhostText

variable {k : Regime} {w w' : World}

/-! ## Sessions that listen are shown -/

/-- Only sessions that are shown hear of the editor, and none that was never shown is closing. -/
structure World.Orderly (w : World) : Prop where
  listening : ∀ n ∈ w.editor.listeners, w.Shows n
  closing : ∀ n s, w.session? n = some s → s.closing = true → s.isFinished = false →
    s.artifact.isSome = true

namespace World

theorem Orderly.congr (h : w.Orderly) (hs : w'.sessions = w.sessions)
    (hl : w'.editor.listeners = w.editor.listeners) : w'.Orderly := by
  have he : ∀ n, w'.session? n = w.session? n := fun n => by rw [session?, hs, session?]
  refine ⟨fun n hn => ?_, fun n s ht => h.closing n s ((he n).symm.trans ht)⟩
  obtain ⟨s, ht, hshown⟩ := h.listening n (hl ▸ hn)
  exact ⟨s, (he n).trans ht, hshown⟩

/-- A session that is only proposed does not listen. -/
theorem Orderly.propose (h : w.Orderly) {s : Session} (hopen : s.isOpen) :
    Orderly { w with sessions := w.sessions ++ [s] } := by
  refine ⟨fun n hn => ?_, fun n t ht hc hf => ?_⟩
  · obtain ⟨t, ht, hshown⟩ := h.listening n hn
    exact ⟨t, session?_append ht s, hshown⟩
  · rcases session?_of_append ht with ht | ⟨-, rfl⟩
    · exact h.closing n t ht hc hf
    · simp [(Session.isOpen_iff.1 hopen).2] at hc

/-- A session that is started is shown, so it may listen. -/
theorem Orderly.startSession (h : w.Orderly) {n : Nat} {s : Session} (hs : w.session? n = some s)
    (fresh : s.artifact = none) (unfinished : s.isFinished = false) :
    (w.startSession n s).Orderly := by
  have hopen : s.closing = false := by
    by_contra hc
    have hshown := h.closing n s hs (by simpa using hc) unfinished
    simp [fresh] at hshown
  refine ⟨fun m hm => ?_, fun m t ht hc hf => ?_⟩
  · rw [listeners_startSession, List.mem_append, List.mem_singleton] at hm
    by_cases he : n = m
    · subst he
      refine ⟨_, (session?_startSession ..).trans (by rw [if_pos rfl, hs, Option.map_some]), ?_⟩
      simp_all [Session.isShown, Session.isOpen, Session.isFinished]
    · obtain ⟨t, ht, hshown⟩ := h.listening m (hm.resolve_right (Ne.symm he))
      exact ⟨t, (session?_startSession ..).trans ((if_neg he).trans ht), hshown⟩
  · rw [session?_startSession] at ht
    split at ht
    · obtain ⟨t, -, rfl⟩ := Option.map_eq_some_iff.1 ht
      rfl
    · exact h.closing m t ht hc hf

/-- A session that was shown is withdrawn. -/
theorem Orderly.withdraw (h : w.Orderly) {n : Nat} {s : Session} (hs : w.session? n = some s)
    (shown : s.artifact.isSome = true) : (((w.beginClosing n).removeSuggestion n s).2).Orderly := by
  obtain ⟨a, hsome, ha⟩ := session?_withdrawn hs
  refine ⟨fun m hm => ?_, fun m t ht hc hf => ?_⟩
  · rw [listeners_removeSuggestion] at hm
    obtain ⟨hm, hne⟩ := List.mem_filter.1 hm
    have hne : m ≠ n := by simpa using hne
    rw [Shows, session?_withdrawn_ne s w hne]
    exact h.listening m hm
  · by_cases hm : m = n
    · subst hm
      obtain rfl := Option.some.inj (ha.symm.trans ht)
      exact hsome shown
    · exact h.closing m t ((session?_withdrawn_ne s w hm).symm.trans ht) hc hf

/-- A session that hears of the editor no more ends. -/
theorem Orderly.finish (h : w.Orderly) {n : Nat} (hn : n ∉ w'.editor.listeners)
    (hl : ∀ m ∈ w'.editor.listeners, m ∈ w.editor.listeners)
    (hothers : ∀ m, n ≠ m → w'.session? m = w.session? m)
    (hended : ∀ s, w'.session? n = some s → s.isFinished = true) : w'.Orderly := by
  refine ⟨fun m hm => ?_, fun m t ht hc hf => ?_⟩
  · rw [Shows, hothers m fun he => hn (he ▸ hm)]
    exact h.listening m (hl m hm)
  · by_cases he : n = m
    · subst he
      simp [hended t ht] at hf
    · exact h.closing m t ((hothers m he).symm.trans ht) hc hf

theorem Orderly.finishes (h : w.Orderly) {n : Nat} {s s' : Session} (hw : w.Finishes w' n s')
    (hs : w.session? n = some s) (closing : s.closing = true) (finished : s'.isFinished = true) :
    w'.Orderly := by
  refine h.finish (n := n) (fun hn => ?_) (fun m hm => hw.listeners ▸ hm) hw.others fun t ht => ?_
  · obtain ⟨t, ht, hshown⟩ := h.listening n (hw.listeners ▸ hn)
    obtain rfl := Option.some.inj (hs.symm.trans ht)
    simp [Session.isShown, Session.isOpen, closing] at hshown
  · obtain rfl := Option.some.inj (hw.session.symm.trans ht)
    exact finished

end World

/-- Whatever step a session takes, only those that are shown listen. -/
theorem SessionStep.orderly (h : SessionStep k w w') (ho : w.Orderly) : w'.Orderly := by
  cases h with
  | propose _ unended _ => exact ho.propose unended
  | start found fresh unfinished _ => exact ho.startSession found fresh unfinished
  | @bring completion c _ _ =>
    have hpropose := ho.propose
      (s := .propose completion c.config.inlineInSource c.config.acceptKey true true) rfl
    have hslot : World.Orderly (World.updateController (fun c =>
        { c with session := some w.sessions.length }) { w with sessions := w.sessions ++ [_] }) :=
      hpropose.congr rfl rfl
    have hfound := List.getElem?_concat_length (l := w.sessions)
      (a := Session.propose completion c.config.inlineInSource c.config.acceptKey true true)
    exact (hslot.startSession hfound rfl rfl).congr rfl rfl
  | withdraw found _ shown => exact ho.withdraw found shown
  | @discard n s reason found unended _ =>
    have hclosing := World.session?_beginClosing_self found
    have hfinish := World.finishes_rejected hclosing reason
    have hl : (World.finishRejected n s.uuid reason (w.beginClosing n)).editor.listeners =
        w.editor.listeners.filter (· != n) := hfinish.listeners
    refine ho.finish (n := n) (by simp [hl]) (fun m hm => ?_) (fun m hm => ?_) fun t ht => ?_
    · rw [hl] at hm
      exact (List.mem_filter.1 hm).1
    · exact (hfinish.others m hm).trans ((World.session?_beginClosing n m w).trans (if_neg hm))
    · obtain rfl := Option.some.inj (hfinish.session.symm.trans ht)
      rfl
  | fail reason found closing _ =>
    exact ho.finishes (World.finishes_rejected found reason) found closing rfl
  | succeed found closing _ => exact ho.finishes (World.finishes_accepted found) found closing rfl

theorem Step.orderly (h : Step k w w') (ho : w.Orderly) : w'.Orderly := by
  cases h with
  | session step => exact step.orderly ho
  | document step => exact ho.congr step.informs.sessions (by rw [step.informs.editor])
  | editor step => exact ho.congr rfl (by cases step <;> rfl)
  | _ => exact ho.congr rfl rfl

theorem Steps.orderly (h : Steps k w w') (ho : w.Orderly) : w'.Orderly := by
  induction h with
  | refl => exact ho
  | tail _ step ih => exact step.orderly ih

/-! ## From the beginning of an end -/

/-- The end of a session that was shown has begun. -/
def World.Closing (w : World) (n : Nat) : Prop :=
  ∃ s, w.session? n = some s ∧ s.closing = true ∧ s.artifact.isSome = true

/-- A session whose end has begun hears of nothing. -/
theorem World.Closing.not_listening {n : Nat} (h : w.Closing n) (ho : w.Orderly) :
    n ∉ w.editor.listeners := by
  obtain ⟨s, hs, hc, -⟩ := h
  intro hn
  obtain ⟨t, ht, hshown⟩ := ho.listening n hn
  obtain rfl := Option.some.inj (hs.symm.trans ht)
  simp [Session.isShown, Session.isOpen, hc] at hshown

/-- The end of one session leaves the end of another begun. -/
theorem World.Finishes.closing {m n : Nat} {s s' : Session} (h : w.Finishes w' m s')
    (hs : w.session? m = some s) (hc : s'.closing = s.closing) (ha : s'.artifact = s.artifact)
    (hn : w.Closing n) : w'.Closing n := by
  obtain ⟨t, ht, hclosing, hshown⟩ := hn
  by_cases hm : m = n
  · subst hm
    obtain rfl := Option.some.inj (hs.symm.trans ht)
    exact ⟨s', h.session, hc.trans hclosing, ha ▸ hshown⟩
  · exact ⟨t, (h.others n hm).trans ht, hclosing, hshown⟩

/-- An end that has begun does not go back. -/
theorem SessionStep.closing (h : SessionStep k w w') {n : Nat} (hn : w.Closing n) :
    w'.Closing n := by
  have hstart : ∀ {w : World} {m : Nat} (s : Session), w.Closing n →
      (∀ s, w.session? m = some s → s.artifact = none) → (w.startSession m s).Closing n := by
    rintro w m s ⟨t, ht, hc, ha⟩ hfresh
    refine ⟨t, (World.session?_startSession ..).trans ((if_neg ?_).trans ht), hc, ha⟩
    rintro rfl
    simp [hfresh t ht] at ha
  have hne : ∀ {m : Nat} {s : Session}, w.session? m = some s → s.isOpen → n ≠ m := by
    rintro m s hs hopen rfl
    obtain ⟨t, ht, hc, -⟩ := hn
    obtain rfl := Option.some.inj (hs.symm.trans ht)
    simp [Session.isOpen, hc] at hopen
  obtain ⟨t, ht, hc, ha⟩ := hn
  cases h with
  | propose _ _ _ => exact ⟨t, World.session?_append ht _, hc, ha⟩
  | start found fresh _ _ =>
    exact hstart _ ⟨t, ht, hc, ha⟩ fun u hu => Option.some.inj (found.symm.trans hu) ▸ fresh
  | @bring completion c _ _ =>
    let s := Session.propose completion c.config.inlineInSource c.config.acceptKey true true
    refine hstart (w := World.updateController (fun c =>
      { c with session := some w.sessions.length }) { w with sessions := w.sessions ++ [s] }) s
      ⟨t, World.session?_append ht s, hc, ha⟩ fun u hu => ?_
    obtain rfl := Option.some.inj ((List.getElem?_concat_length ..).symm.trans hu)
    rfl
  | @withdraw m s found unended _ =>
    exact ⟨t, (World.session?_withdrawn_ne s w (hne found unended)).trans ht, hc, ha⟩
  | @discard m s reason found unended _ =>
    have hclosing := World.session?_beginClosing_self found
    refine (World.finishes_rejected hclosing reason).closing hclosing rfl rfl
      ⟨t, (World.session?_beginClosing m n w).trans ?_, hc, ha⟩
    rw [if_neg (hne found unended).symm, ht]
  | fail reason found _ _ =>
    exact (World.finishes_rejected found reason).closing found rfl rfl ⟨t, ht, hc, ha⟩
  | succeed found _ _ =>
    exact (World.finishes_accepted found).closing found rfl rfl ⟨t, ht, hc, ha⟩

theorem Step.closing (h : Step k w w') {n : Nat} (hn : w.Closing n) : w'.Closing n := by
  cases h with
  | session step => exact step.closing hn
  | document step =>
    obtain ⟨s, hs, hclosing⟩ := hn
    exact ⟨s, by rw [World.session?, step.informs.sessions]; exact hs, hclosing⟩
  | _ => exact hn

/-- Along a row of steps an end that has begun stays begun. -/
theorem Steps.closing (h : Steps k w w') {n : Nat} (hn : w.Closing n) : w'.Closing n := by
  induction h with
  | refl => exact hn
  | tail _ step ih => exact step.closing ih

/-! ## The moment of an end -/

/-- The worlds of a row of steps are worlds that steps lead to. -/
theorem steps_of_row {passed : List World} (row : (w :: passed).IsChain (Step k)) :
    Steps k w (passed.getLastD w) := by
  induction passed generalizing w with
  | nil => exact .refl
  | cons w₂ passed ih =>
    obtain ⟨hstep, hrest⟩ := List.isChain_cons_cons.1 row
    rw [List.getLastD_cons]
    exact .head hstep (ih hrest)

section Reticent

variable (he : ¬ k.engages) (hw : ∀ b, ¬ k.does (.client (.acceptWrites b)))

include he

/-- A session that was started ends in one step, and by then its end has begun. -/
theorem SessionStep.finished (h : SessionStep k w w') (ho : w.Orderly) {n : Nat}
    (hn : ¬ w.Finished n) (hn' : w'.Finished n)
    (started : ∀ s, w'.session? n = some s → s.artifact.isSome = true) :
    w.Closing n ∧ w.Ends w' [n] := by
  have hmem : ∀ {order : List Nat}, w.Ends w' order → n ∈ order := fun hends =>
    (hends.ended n).2 ⟨hn', hn⟩
  have hends : ∀ {m : Nat} {s s' : Session}, w.Finishes w' m s' → w.session? m = some s →
      s.closing = true → s.isFinished = false → s'.completion = s.completion →
      s'.isFinished = true → w.Closing n ∧ w.Ends w' [n] := by
    intro m s s' hw hs hclosing hunfinished hcompletion hfinished
    have hends := hw.ends hs hunfinished hcompletion hfinished
    obtain rfl := List.mem_singleton.1 (hmem hends)
    exact ⟨⟨s, hs, hclosing, ho.closing n s hs hclosing hunfinished⟩, hends⟩
  cases h with
  | propose _ unended _ =>
    have hunfinished := Session.unfinished_of_isOpen unended
    exact absurd (hmem (World.ends_propose hunfinished)) List.not_mem_nil
  | start found _ unfinished _ =>
    exact absurd (hmem (World.ends_startSession found unfinished)) List.not_mem_nil
  | bring _ _ engages => exact absurd engages he
  | withdraw found unended _ =>
    have hunfinished := Session.unfinished_of_isOpen unended
    exact absurd (hmem (World.ends_withdraw found hunfinished)) List.not_mem_nil
  | @discard m s reason found unended fresh =>
    have hunfinished := Session.unfinished_of_isOpen unended
    have hclosing := World.session?_beginClosing_self found
    have hfinish := World.finishes_rejected hclosing reason
    have hends := (World.ends_beginClosing found hunfinished).trans
      (hfinish.ends hclosing hunfinished rfl rfl)
    obtain rfl : n = m := List.mem_singleton.1 (hmem hends)
    simpa [fresh] using started _ hfinish.session
  | fail reason found closing unfinished =>
    exact hends (World.finishes_rejected found reason) found closing unfinished rfl rfl
  | succeed found closing unfinished =>
    exact hends (World.finishes_accepted found) found closing unfinished rfl rfl

include hw

/-- On a row of steps a session that was started ends at one point. Its end has begun there, and
what is told first from there on is what is told of its end. By induction on the row: either its
first step is the one that ends the session, or the rest of the row is. -/
theorem exists_end {passed : List World} (row : (w :: passed).IsChain (Step k)) (ho : w.Orderly)
    {n : Nat} (hn : ¬ w.Finished n) (hn' : (passed.getLastD w).Finished n)
    (started : ∀ s, (passed.getLastD w).session? n = some s → s.artifact.isSome = true) :
    ∃ w₁ ∈ w :: passed, Steps k w w₁ ∧ Steps k w₁ (passed.getLastD w) ∧ ¬ w₁.Finished n ∧
      w₁.Closing n ∧ ∃ rest, ((passed.getLastD w).events.drop w₁.events.length).filter
        Event.isEnding = (passed.getLastD w).farewell n ++ rest := by
  induction passed generalizing w with
  | nil => exact absurd hn' hn
  | cons w₂ passed ih =>
    rw [List.getLastD_cons] at hn' started ⊢
    obtain ⟨hstep, hrest⟩ := List.isChain_cons_cons.1 row
    by_cases hnext : w₂.Finished n
    · have hsession := (hstep.leaves he hw).resolve_left fun hleaves =>
        List.not_mem_nil ((hleaves.ends.ended n).2 ⟨hnext, hn⟩)
      obtain ⟨order, hends'⟩ := (steps_of_row hrest).ends he hw
      obtain ⟨hclosing, hends⟩ := hsession.finished he ho hn hnext fun s hs => by
        obtain ⟨t, ht, hf⟩ := hnext
        obtain rfl := Option.some.inj (ht.symm.trans hs)
        exact started t (hends'.kept n t ht hf)
      obtain ⟨es, he₁, hes⟩ := hends.told
      obtain ⟨es', he₂, -⟩ := hends'.told
      refine ⟨w, List.mem_cons_self, .refl, .head hstep (steps_of_row hrest), hn, hclosing,
        es'.filter Event.isEnding, ?_⟩
      rw [he₂, he₁, List.append_assoc, List.drop_left, List.filter_append, hes,
        hends'.farewell hnext, List.flatMap_singleton]
    · obtain ⟨w₁, hmem, hto, hfrom⟩ := ih hrest (hstep.orderly ho) hnext hn' started
      exact ⟨w₁, List.mem_cons_of_mem w hmem, .head hstep hto, hfrom⟩

end Reticent

/-! ## Whole runs -/

/-- A session whose end has begun is neither accepted nor rejected any more. -/
theorem World.Closing.inert {n : Nat} (h : w.Closing n) (run : Runner) (reason : String) :
    acceptSession run n w = (false, w) ∧ w.rejectSession n reason = (false, w) := by
  obtain ⟨s, hs, hc, -⟩ := h
  have hopen : (!s.isOpen) = true := by simp [Session.isOpen, hc]
  constructor
  · unfold acceptSession
    rw [hs]
    exact if_pos hopen
  · unfold rejectSession
    rw [hs]
    exact if_pos hopen

/-- A session ends between two points of a run. Whichever row of steps the run takes from the one to
the other, it comes by a point at which the session has not ended and from where on nothing reaches
it, and what is told of ends first from there on is told of this one. -/
def World.Concludes (k : Regime) (w w' : World) (n : Nat) : Prop :=
  Steps k w w' ∧ ∀ passed, (w :: passed).IsChain (Step k) → passed.getLastD w = w' →
    ∃ w₁ ∈ w :: passed, Steps k w w₁ ∧ Steps k w₁ w' ∧ ¬ w₁.Finished n ∧
      (∃ rest, (w'.events.drop w₁.events.length).filter Event.isEnding = w'.farewell n ++ rest) ∧
      ∀ w₂, Steps k w₁ w₂ → n ∉ w₂.editor.listeners ∧ ∀ run reason,
        acceptSession run n w₂ = (false, w₂) ∧ w₂.rejectSession n reason = (false, w₂)

section Reticent

variable (he : ¬ k.engages) (hw : ∀ b, ¬ k.does (.client (.acceptWrites b)))

include he hw

/-- A session that ends on the way from one world to another does so at a point of every row of
steps between them. -/
theorem Steps.concludes (h : Steps k w w') (ho : w.Orderly) {n : Nat} (hn : ¬ w.Finished n)
    (hn' : w'.Finished n) (started : ∀ s, w'.session? n = some s → s.artifact.isSome = true) :
    w.Concludes k w' n := by
  refine ⟨h, fun passed row hlast => ?_⟩
  subst hlast
  obtain ⟨w₁, hmem, hto, hfrom, hunfinished, hclosing, htold⟩ :=
    exists_end he hw row ho hn hn' started
  refine ⟨w₁, hmem, hto, hfrom, hunfinished, htold, fun w₂ h₂ => ?_⟩
  have hstill := h₂.closing hclosing
  exact ⟨hstill.not_listening (h₂.orderly (hto.orderly ho)), hstill.inert⟩

/-- A session that ends in a run ends in one of its actions. -/
theorem exists_action {actions : List Action} (hs : k.Sound w) (takes : k.Takes actions w)
    (ho : w.Orderly) {n : Nat} (hn : ¬ w.Finished n) (hn' : (w.after actions).Finished n)
    (started : ∀ s, (w.after actions).session? n = some s → s.artifact.isSome = true) :
    ∃ done a rest, actions = done ++ a :: rest ∧
      (w.after done).Concludes k (w.after (done ++ [a])) n := by
  induction actions generalizing w with
  | nil => exact absurd hn' hn
  | cons a actions ih =>
    have hact : Steps k w (World.act a w).2 := (World.leads_act takes.1).steps hs
    by_cases hnext : (World.act a w).2.Finished n
    · obtain ⟨order, hends⟩ :=
        ((World.leads_after takes.2).steps (hact.sound hs)).ends he hw
      refine ⟨[], a, actions, rfl, hact.concludes he hw ho hn hnext fun s hs => ?_⟩
      obtain ⟨t, ht, hf⟩ := hnext
      obtain rfl := Option.some.inj (ht.symm.trans hs)
      exact started t (hends.kept n t ht hf)
    · obtain ⟨done, b, rest, rfl, hconcludes⟩ :=
        ih (hact.sound hs) takes.2 (hact.orderly ho) hnext hn' started
      exact ⟨a :: done, b, rest, rfl, hconcludes⟩

end Reticent

namespace World

variable {k : Conduct} {t : Transport} {setup : ClientSetup} {w : World}

theorem Fresh.orderly (h : w.Fresh k t) : w.Orderly :=
  ⟨by simp [h.listeners], by simp [session?, h.sessions]⟩

/-- Whatever was started, of the sessions that a host then ends, by accepting or rejecting them or
by what it does in the editor, each ends once: the sessions that have ended at last and had not
before are told of, in some order, each with one notice to the server and one signal, and nothing
else is told of ends. What has ended stays as it is. And each session that was started settles, in
one of the actions of the host: from a point of that action on, before anything is told of the end,
nothing reaches it. -/
theorem ends_once {before later : List Action} (begins : Begins t setup w)
    (equips : k.Equips setup) (reticent : k.Reticent) (unready : t.answers = [])
    (shows : k.Shows before w) (takes : k.Takes later (w.after before)) :
    ∃ order, (w.after before).Ends (w.after (before ++ later)) order ∧ ∀ n ∈ order,
      (∀ s, (w.after (before ++ later)).session? n = some s → s.artifact.isSome = true) →
        (w.after before).Concludes (k.reticence reticent) (w.after (before ++ later)) n ∧
        ∃ done a rest, later = done ++ a :: rest ∧
          (w.after (before ++ done)).Concludes (k.reticence reticent)
            (w.after (before ++ done ++ [a])) n := by
  have hfresh := begins.fresh equips
  have hbefore := (leads_showsAll shows).steps hfresh.sound
  have hsound : (k.reticence reticent).Sound (w.after before) :=
    (hbefore.sound hfresh.sound).reticence reticent
      ((Steps.answers_eq hbefore).1.trans (by rw [hfresh.transport, unready]))
  have horderly : (w.after before).Orderly := Steps.orderly hbefore hfresh.orderly
  have hengages : ¬ (k.reticence reticent).engages := nofun
  simp only [List.append_assoc, after_append before]
  have hlater := (leads_after (k := k.reticence reticent) takes).steps hsound
  obtain ⟨order, hends⟩ := hlater.ends hengages reticent.writes
  refine ⟨order, hends, fun n hn started => ?_⟩
  obtain ⟨hn', hnot⟩ := (hends.ended n).1 hn
  exact ⟨hlater.concludes hengages reticent.writes horderly hnot hn' started,
    exists_action (k := k.reticence reticent) hengages reticent.writes hsound takes horderly hnot
      hn' started⟩

/-- A key accepts one session, and the edit that puts its completion into the text ends another one
before that. -/
theorem ends_once_side_by_side :
    let t : Transport := ⟨true, [], .atOnce, false, []⟩
    let completion (uuid text : String) : Json := .obj [("uuid", .str uuid), ("text", .str text)]
    let before : List Action := [.controller (.present (completion "a" "c")),
      .session (.create (completion "b" "d") false .null true), .session (.start 1)]
    let later : List Action := [.editor (.key (.str "Tab"))]
    ∃ w₀ w, startEditing 1 t ⟨.null, .null, [], []⟩ ⟨.str "ab", .str "/a.txt", .null, .lf⟩
        none none none none = .ok w₀ ∧ w₀.withController .null = .ok w ∧
      ∃ k order, (w.after before).Ends (w.after (before ++ later)) order ∧
        (∀ n ∈ order, (w.after before).Concludes k (w.after (before ++ later)) n ∧
          ∃ done a rest, later = done ++ a :: rest ∧
            (w.after (before ++ done)).Concludes k (w.after (before ++ done ++ [a])) n) ∧
        (0 ∈ order ∧ 1 ∈ order) ∧
        (w.after (before ++ later)).sessions.map Session.state = [.accepted, .rejected] := by
  intro t completion before later
  refine ⟨_, _, rfl, rfl, ?_⟩
  have begins : Begins t ⟨.null, .null, [], []⟩ _ :=
    .controller 1 ⟨.str "ab", .str "/a.txt", .null, .lf⟩ none none none none .null rfl rfl
  have hbefore : ∀ a ∈ before, a.shows ∨ (a.isReticent && a.inner.isEmpty) := by decide
  have hlater : ∀ a ∈ later, a.isReticent && a.inner.isEmpty := by decide
  obtain ⟨order, hends, hsettles⟩ := ends_once begins (by simp [Conduct.Equips])
    (Conduct.reticent_ofKind fun _ h => h) rfl (Conduct.shows_ofKind hbefore _)
    (Conduct.takes_ofKind hlater _)
  refine ⟨_, order, hends, fun n hn => hsettles n hn fun s hs => ?_, ?_, by decide +kernel⟩
  · exact (show ∀ s ∈ (after (before ++ later) _).sessions, s.artifact.isSome = true by
      decide +kernel) s (List.mem_of_getElem? hs)
  · rw [hends.ended, hends.ended]
    decide +kernel

end World

end GhostText
