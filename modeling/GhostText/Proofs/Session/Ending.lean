import GhostText.Proofs.Run.Reticence
import GhostText.Proofs.Session.Listening
import GhostText.Proofs.Wire.Messages

/-!
# A session ends once

A session is proposed until it is accepted or rejected, and then it stays so. When it ends the
server is told once, and so is everybody else; by then the session hears of the editor no more.
-/

namespace GhostText

/-! ## What an end looks like from outside -/

/-- Whether a payload tells the server that a completion was accepted or turned down. -/
def Json.settlesCompletion (payload : Json) : Bool :=
  match Message.classify payload with
  | .ok (.notification method _) => ["notifyAccepted", "notifyRejected"].contains method
  | _ => false

/-- An event that tells of the end of a session, or of what became of a completion otherwise. -/
def Event.isEnding : Event → Bool
  | .sent payload => payload.settlesCompletion
  | .signalled (.sessionFinished _ _ _) => true
  | .signalled (.sessionSettled _ _) => true
  | _ => false

theorem Json.isReport_of_settlesCompletion {payload : Json} (h : payload.settlesCompletion) :
    payload.isReport = true := by
  unfold Json.settlesCompletion at h
  unfold Json.isReport
  cases hm : Message.classify payload with
  | error _ => simp [hm] at h
  | ok m =>
    cases m with
    | notification method params =>
      simp only [hm, List.contains_eq_mem, List.mem_cons, List.not_mem_nil, or_false,
        decide_eq_true_eq] at h
      simp [reportMethods, h]
    | _ => simp [hm] at h

/-- What is not about sessions tells of no end. -/
theorem Event.not_isEnding {e : Event} (h : e.isOfSession = false) : e.isEnding = false := by
  unfold Event.isEnding
  split <;> simp_all [Event.isOfSession]
  by_contra hs
  simp [Json.isReport_of_settlesCompletion (by simpa using hs)] at h

theorem settlesCompletion_notice (s : Session) : s.notice.settlesCompletion = true := by
  unfold Session.notice
  split <;> simp [World.acceptanceOf, World.rejectionOf, Json.settlesCompletion,
    Message.classify_notification]

namespace World

variable {w w' w'' : World} {n : Nat} {s : Session}

/-- A session has been accepted or rejected. -/
def Finished (w : World) (n : Nat) : Prop := ∃ s, w.session? n = some s ∧ s.isFinished = true

instance (w : World) (n : Nat) : Decidable (w.Finished n) :=
  decidable_of_iff ((w.session? n).any Session.isFinished) (Option.any_eq_true ..)

/-- What is told of the end of a session: one notice to the server, if it takes any, and one signal
to everybody else. -/
def farewell (w : World) (n : Nat) : List Event :=
  match w.session? n with
  | none => []
  | some s => (if w.transport.accepting then [.sent s.notice] else []) ++ [.signalled s.finish]

/-- Some sessions have ended, in an order, and nothing was told of ends but theirs. -/
structure Ends (w w' : World) (order : List Nat) : Prop where
  accepting : w'.transport.accepting = w.transport.accepting
  lasts : ∀ n s, w.session? n = some s →
    ∃ s', w'.session? n = some s' ∧ s'.completion = s.completion
  kept : ∀ n s, w.session? n = some s → s.isFinished = true → w'.session? n = some s
  nodup : order.Nodup
  ended : ∀ n, n ∈ order ↔ w'.Finished n ∧ ¬ w.Finished n
  told : ∃ es, w'.events = w.events ++ es ∧ es.filter Event.isEnding = order.flatMap w'.farewell

namespace Ends

theorem finished {order : List Nat} (h : w.Ends w' order) (hn : w.Finished n) : w'.Finished n := by
  obtain ⟨s, hs, hf⟩ := hn
  exact ⟨s, h.kept n s hs hf, hf⟩

/-- What is told of a session that has ended stays the same. -/
theorem farewell {order : List Nat} (h : w.Ends w' order) (hn : w.Finished n) :
    w'.farewell n = w.farewell n := by
  obtain ⟨s, hs, hf⟩ := hn
  simp [World.farewell, hs, h.kept n s hs hf, h.accepting]

theorem refl (w : World) : w.Ends w [] :=
  ⟨rfl, fun _ s hs => ⟨s, hs, rfl⟩, fun _ _ hs _ => hs, .nil, by simp, [], by simp⟩

theorem trans {order order' : List Nat} (h : w.Ends w' order) (h' : w'.Ends w'' order') :
    w.Ends w'' (order ++ order') := by
  obtain ⟨es, he, hes⟩ := h.told
  obtain ⟨es', he', hes'⟩ := h'.told
  refine ⟨h'.accepting.trans h.accepting, fun n s hs => ?_,
    fun n s hs hf => h'.kept n s (h.kept n s hs hf) hf, ?_, fun n => ?_, es ++ es', ?_, ?_⟩
  · obtain ⟨s', hs', hc⟩ := h.lasts n s hs
    obtain ⟨s'', hs'', hc'⟩ := h'.lasts n s' hs'
    exact ⟨s'', hs'', hc'.trans hc⟩
  · refine h.nodup.append h'.nodup fun n hn hn' => ?_
    exact ((h'.ended n).1 hn').2 ((h.ended n).1 hn).1
  · rw [List.mem_append, h.ended, h'.ended]
    constructor
    · rintro (⟨hn, hnot⟩ | ⟨hn, hnot⟩)
      · exact ⟨h'.finished hn, hnot⟩
      · exact ⟨hn, fun hw => hnot (h.finished hw)⟩
    · rintro ⟨hn, hnot⟩
      by_cases hmid : w'.Finished n
      · exact Or.inl ⟨hmid, hnot⟩
      · exact Or.inr ⟨hn, hmid⟩
  · rw [he', he, List.append_assoc]
  · rw [List.filter_append, hes, hes', List.flatMap_append]
    congr 1
    exact List.flatMap_congr fun n hn => (h'.farewell ((h.ended n).1 hn).1).symm

end Ends

/-! ## The parts of an end -/

/-- Nothing was told of an end. -/
theorem Ends.of_silent (accepting : w'.transport.accepting = w.transport.accepting)
    (lasts : ∀ n s, w.session? n = some s →
      ∃ s', w'.session? n = some s' ∧ s'.completion = s.completion ∧ (s.isFinished → s' = s))
    (unfinished : ∀ n, w'.Finished n → w.Finished n)
    (silent : ∃ es, w'.events = w.events ++ es ∧ ∀ e ∈ es, e.isEnding = false) :
    w.Ends w' [] := by
  obtain ⟨es, he, hes⟩ := silent
  refine ⟨accepting, fun n s hs => ?_, fun n s hs hf => ?_, .nil, fun n => ?_, es, he, ?_⟩
  · obtain ⟨s', hs', hc, -⟩ := lasts n s hs
    exact ⟨s', hs', hc⟩
  · obtain ⟨s', hs', -, he⟩ := lasts n s hs
    exact he hf ▸ hs'
  · simpa using unfinished n
  · simpa using hes

/-- What is told of a session as it ends. -/
theorem filter_farewell (s : Session) {es : List Event} (ha : ∀ e ∈ es, e.isAside)
    (accepting : Bool) :
    List.filter Event.isEnding
        ((if accepting then [.sent s.notice] else []) ++ (es ++ [.signalled s.finish])) =
      (if accepting then [.sent s.notice] else []) ++ [.signalled s.finish] := by
  have hasides : es.filter Event.isEnding = [] := by
    simpa using fun e he => Event.not_isEnding (Event.not_isOfSession_of_isAside (ha e he))
  have hfinish : Event.isEnding (.signalled s.finish) = true := by
    unfold Session.finish
    split <;> rfl
  have hnotice : Event.isEnding (.sent s.notice) = true := settlesCompletion_notice s
  cases accepting <;> simp [hasides, hfinish, hnotice]

/-- A session that had not ended ends. -/
theorem Finishes.ends {s' : Session} (h : w.Finishes w' n s') (hs : w.session? n = some s)
    (unfinished : s.isFinished = false) (hcompletion : s'.completion = s.completion)
    (finished : s'.isFinished = true) : w.Ends w' [n] := by
  obtain ⟨es, ha, he⟩ := h.told
  refine ⟨h.accepting, fun m t ht => ?_, fun m t ht hf => ?_, List.nodup_singleton n,
    fun m => ?_, _, he, ?_⟩
  · by_cases hm : n = m
    · subst hm
      obtain rfl := Option.some.inj (hs.symm.trans ht)
      exact ⟨s', h.session, hcompletion⟩
    · exact ⟨t, (h.others m hm).trans ht, rfl⟩
  · have hm : n ≠ m := by
      rintro rfl
      obtain rfl := Option.some.inj (hs.symm.trans ht)
      simp [unfinished] at hf
    exact (h.others m hm).trans ht
  · rw [List.mem_singleton]
    constructor
    · rintro rfl
      refine ⟨⟨s', h.session, finished⟩, ?_⟩
      rintro ⟨t, ht, hf⟩
      obtain rfl := Option.some.inj (hs.symm.trans ht)
      simp [unfinished] at hf
    · rintro ⟨⟨t, ht, hf⟩, hnot⟩
      by_contra hm
      exact hnot ⟨t, (h.others m (Ne.symm hm)).symm.trans ht, hf⟩
  · rw [filter_farewell s' ha]
    simp [World.farewell, h.session, h.accepting]

/-- A session that has not ended changes, but not in what became of it. -/
theorem Ends.of_update {f : Session → Session} (hs : w.session? n = some s)
    (unfinished : s.isFinished = false) (state : (f s).state = s.state)
    (completion : (f s).completion = s.completion)
    (hw : ∀ m, w'.session? m = if n = m then (w.session? m).map f else w.session? m)
    (accepting : w'.transport.accepting = w.transport.accepting)
    (silent : ∃ es, w'.events = w.events ++ es ∧ ∀ e ∈ es, e.isEnding = false) :
    w.Ends w' [] := by
  have hn : w'.session? n = some (f s) := by rw [hw, if_pos rfl, hs, Option.map_some]
  have hunfinished : (f s).isFinished = false := by
    simpa only [Session.isFinished, state] using unfinished
  refine .of_silent accepting (fun m t ht => ?_) (fun m => ?_) silent
  · by_cases hm : n = m
    · subst hm
      obtain rfl := Option.some.inj (hs.symm.trans ht)
      exact ⟨f s, hn, completion, fun hf => by simp [unfinished] at hf⟩
    · exact ⟨t, by rw [hw, if_neg hm, ht], rfl, fun _ => rfl⟩
  · rintro ⟨t, ht, hf⟩
    by_cases hm : n = m
    · subst hm
      obtain rfl := Option.some.inj (hn.symm.trans ht)
      simp [hunfinished] at hf
    · rw [hw, if_neg hm] at ht
      exact ⟨t, ht, hf⟩

/-- Where the sessions stay as they are and no end is told, none has ended. -/
theorem Ends.of_sessions (hs : w'.sessions = w.sessions)
    (accepting : w'.transport.accepting = w.transport.accepting)
    (silent : ∃ es, w'.events = w.events ++ es ∧ ∀ e ∈ es, e.isEnding = false) :
    w.Ends w' [] := by
  have hsession : ∀ n, w'.session? n = w.session? n := fun n => by rw [session?, hs, session?]
  refine .of_silent accepting (fun n s hs => ⟨s, (hsession n).trans hs, rfl, fun _ => rfl⟩)
    (fun n => ?_) silent
  rintro ⟨s, hs, hf⟩
  exact ⟨s, (hsession n).symm.trans hs, hf⟩

/-- Where the sessions are left none ends. -/
theorem Leaves.ends (h : w.Leaves w') : w.Ends w' [] := by
  obtain ⟨es, he, hes⟩ := h.events
  exact .of_sessions h.sessions h.accepting ⟨es, he, fun e hm => Event.not_isEnding (hes e hm)⟩

theorem ends_propose (hopen : s.isFinished = false) :
    w.Ends { w with sessions := w.sessions ++ [s] } [] := by
  refine .of_silent rfl (fun n t ht => ⟨t, session?_append ht s, rfl, fun _ => rfl⟩) (fun n => ?_)
    ⟨[], (List.append_nil _).symm, List.forall_mem_nil _⟩
  rintro ⟨t, ht, hf⟩
  rcases session?_of_append ht with ht | ⟨-, rfl⟩
  · exact ⟨t, ht, hf⟩
  · simp [hopen] at hf

/-- An end that begins is not told yet. -/
theorem ends_beginClosing (hs : w.session? n = some s) (hopen : s.isFinished = false) :
    w.Ends (w.beginClosing n) [] :=
  .of_update (f := fun s => { s with closing := true }) hs hopen rfl rfl
    (fun m => session?_beginClosing n m w) rfl
    ⟨[], (List.append_nil _).symm, List.forall_mem_nil _⟩

/-- A session that is withdrawn has not ended yet. -/
theorem ends_withdraw (hs : w.session? n = some s) (hopen : s.isFinished = false) :
    w.Ends ((w.beginClosing n).removeSuggestion n s).2 [] := by
  obtain ⟨a, -, ha⟩ := session?_withdrawn hs
  refine .of_update (f := fun s => { s with closing := true, artifact := a }) hs hopen rfl rfl
    (fun m => ?_) (by rw [(beside_removeSuggestion n s _).transport]; rfl)
    ⟨[], by rw [events_removeSuggestion, List.append_nil]; rfl, List.forall_mem_nil _⟩
  by_cases hm : n = m
  · subst hm
    rw [if_pos rfl, ha, hs, Option.map_some]
  · rw [if_neg hm, session?_withdrawn_ne s w (Ne.symm hm)]

/-- The message that a completion is shown. -/
def showingOf (uuid : String) : Json :=
  (Message.notification "notifyShown" (.obj [("uuid", .str uuid)])).toJson

/-- The server is told of a session that is started. -/
theorem startSession_told (n : Nat) (s : Session) (w : World) : ∃ es, (∀ e ∈ es, e.isAside) ∧
    (w.startSession n s).events =
      w.events ++ ((if w.transport.accepting then [.sent (showingOf s.uuid)] else []) ++ es) := by
  obtain ⟨es, ha, he⟩ := post_adds (showingOf s.uuid)
    ((w.updateCanvas fun _ => (w.canvas.display s.completion s.inline).2).updateSession n fun t =>
      { t with artifact := some (w.canvas.display s.completion s.inline).1,
               history := w.buffer.history })
  exact ⟨es, ha, congrArg World.events he⟩

theorem ends_startSession (hs : w.session? n = some s) (unfinished : s.isFinished = false) :
    w.Ends (w.startSession n s) [] := by
  obtain ⟨es, ha, he⟩ := startSession_told n s w
  refine .of_update (f := fun t => { t with
    artifact := some (w.canvas.display s.completion s.inline).1, history := w.buffer.history })
    hs unfinished rfl rfl (fun m => session?_startSession n m s w)
    (by rw [(beside_startSession n s w).transport]) ⟨_, he, fun e hm => ?_⟩
  rcases List.mem_append.1 hm with hm | hm
  · split at hm
    · obtain rfl := List.mem_singleton.1 hm
      simp [Event.isEnding, Json.settlesCompletion, showingOf, Message.classify_notification]
    · cases hm
  · exact Event.not_isEnding (Event.not_isOfSession_of_isAside (ha e hm))

theorem ends_bring (completion : Completion) (c : Controller) (w : World) :
    w.Ends (w.bring completion c) [] := by
  let s := Session.propose completion c.config.inlineInSource c.config.acceptKey true true
  let w₁ := { w with sessions := w.sessions ++ [s] }
  let w₂ := w₁.updateController fun c => { c with session := some w.sessions.length }
  have hpropose : w.Ends w₁ [] := ends_propose rfl
  have hslot : w₁.Ends w₂ [] :=
    .of_sessions rfl rfl ⟨[], (List.append_nil _).symm, List.forall_mem_nil _⟩
  have hstart : w₂.Ends (w₂.startSession w.sessions.length s) [] :=
    ends_startSession (List.getElem?_concat_length ..) rfl
  have hsignal : (w₂.startSession w.sessions.length s).Ends (w.bring completion c) [] :=
    .of_sessions rfl rfl ⟨_, rfl, by simp [Event.isEnding]⟩
  exact hpropose.trans (hslot.trans (hstart.trans hsignal))

end World

/-! ## Steps -/

variable {k : Regime} {w w' : World}

/-- A step of the sessions ends one at most, which is told once. -/
theorem SessionStep.ends (h : SessionStep k w w') : ∃ order, w.Ends w' order := by
  cases h with
  | @propose _ _ _ _ s fresh unended _ =>
    exact ⟨[], World.ends_propose (Session.unfinished_of_isOpen unended)⟩
  | start found _ unfinished _ => exact ⟨[], World.ends_startSession found unfinished⟩
  | bring completion _ _ => exact ⟨[], World.ends_bring completion _ w⟩
  | @withdraw n s found unended shown =>
    exact ⟨[], World.ends_withdraw found (Session.unfinished_of_isOpen unended)⟩
  | @discard n s reason found unended _ =>
    have hunfinished := Session.unfinished_of_isOpen unended
    have hclosing := World.session?_beginClosing_self found
    have hfinish := (World.finishes_rejected hclosing reason).ends hclosing hunfinished rfl rfl
    exact ⟨_, (World.ends_beginClosing found hunfinished).trans hfinish⟩
  | fail reason found _ unfinished =>
    exact ⟨_, (World.finishes_rejected found reason).ends found unfinished rfl rfl⟩
  | succeed found _ unfinished =>
    exact ⟨_, (World.finishes_accepted found).ends found unfinished rfl rfl⟩

/-- Every step tells of the ends that it brings about and of no others. -/
theorem Step.ends (h : Step k w w') (he : ¬ k.engages)
    (hw : ∀ b, ¬ k.does (.client (.acceptWrites b))) : ∃ order, w.Ends w' order :=
  (h.leaves he hw).elim (fun hleaves => ⟨[], hleaves.ends⟩) fun hsession => hsession.ends

/-- A row of steps tells of the ends that it brings about, in the order in which they come. -/
theorem Steps.ends (h : Steps k w w') (he : ¬ k.engages)
    (hw : ∀ b, ¬ k.does (.client (.acceptWrites b))) : ∃ order, w.Ends w' order := by
  induction h with
  | refl => exact ⟨[], .refl w⟩
  | tail _ step ih =>
    obtain ⟨order, ih⟩ := ih
    obtain ⟨order', hends⟩ := step.ends he hw
    exact ⟨order ++ order', ih.trans hends⟩

end GhostText
