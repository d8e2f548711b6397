import GhostText.Proofs.Run.Notices

/-!
# What stays as it is

Log records, signals and messages only make the list of events longer. A session changes nothing but
the sessions themselves, the editor, and what the controller keeps of its session and of the change
that waits.
-/

namespace GhostText

/-- An event that neither calls the host back nor tells the server of a document. -/
def Event.isQuiet : Event → Bool
  | .sent payload => payload.documentNotice?.isNone
  | .calledBack _ _ _ => false
  | _ => true

/-- A log record, or the signal that comes with the record of a message. -/
def Event.isTrace : Event → Bool
  | .logged _ _ => true
  | .signalled (.trafficLogged _ _) => true
  | _ => false

theorem Event.isAside_of_isTrace {e : Event} (h : e.isTrace) : e.isAside := by
  unfold isTrace at h
  split at h <;> first | rfl | cases h

theorem Event.isQuiet_of_isAside {e : Event} (h : e.isAside) : e.isQuiet := by
  cases e <;> simp_all [Event.isAside, Event.isQuiet]

theorem Event.documentNotice?_of_isQuiet {e : Event} (h : e.isQuiet) :
    e.documentNotice? = none := by
  cases e with
  | sent payload => exact Option.isNone_iff_eq_none.1 h
  | _ => rfl

namespace Transport

variable {t : Transport}

theorem answerTo?_of_nil (h : t.answers = []) (payload : Json) : t.answerTo? payload = none := by
  unfold answerTo?
  split
  · simp [h]
  · rfl

/-- A request has no answer that is ready if its method has none. -/
theorem answerTo?_request {method : String} (h : t.answers.lookup method = none)
    (id params : Json) : t.answerTo? (Message.request id method params).toJson = none := by
  simp [answerTo?, Message.toJson, Json.field?, Json.fields, List.lookup_cons, h]

end Transport

namespace World

/-- The second world is the first with further events. -/
def Adds (w w' : World) (es : List Event) : Prop := w' = { w with events := w.events ++ es }

variable {w w' w'' : World}

theorem Adds.refl (w : World) : Adds w w [] := by
  simp [Adds]

theorem Adds.trans {es es' : List Event} (h : Adds w w' es) (h' : Adds w' w'' es') :
    Adds w w'' (es ++ es') := by
  subst h h'
  simp [Adds]

theorem adds_record (e : Event) (w : World) : Adds w (w.record e) [e] := rfl

/-- Only events are added, and none but those of some kind. -/
def AddsOnly (p : Event → Bool) (w w' : World) : Prop := ∃ es, Adds w w' es ∧ ∀ e ∈ es, p e

section Only

variable {p q : Event → Bool}

theorem AddsOnly.refl (w : World) : AddsOnly p w w := ⟨[], .refl w, by simp⟩

theorem AddsOnly.trans (h : AddsOnly p w w') (h' : AddsOnly p w' w'') : AddsOnly p w w'' := by
  obtain ⟨es, he, hp⟩ := h
  obtain ⟨es', he', hp'⟩ := h'
  exact ⟨es ++ es', he.trans he', List.forall_mem_append.2 ⟨hp, hp'⟩⟩

/-- What adds events of one kind adds events of any wider kind. -/
theorem AddsOnly.imp (h : AddsOnly p w w') (hpq : ∀ e : Event, p e → q e) : AddsOnly q w w' := by
  obtain ⟨es, he, hp⟩ := h
  exact ⟨es, he, fun e hm => hpq e (hp e hm)⟩

theorem addsOnly_record {e : Event} (h : p e) (w : World) : AddsOnly p w (w.record e) :=
  ⟨[e], rfl, by simpa using h⟩

end Only

abbrev AddsTraces : World → World → Prop := AddsOnly Event.isTrace

abbrev AddsAsides : World → World → Prop := AddsOnly Event.isAside

theorem AddsTraces.asides (h : AddsTraces w w') : AddsAsides w w' :=
  h.imp fun _ => Event.isAside_of_isTrace

theorem addsTraces_log (level : LogLevel) (text : String) (w : World) :
    AddsTraces w (w.log level text) :=
  addsOnly_record (e := .logged level text) rfl w

theorem addsTraces_clientLog (level : LogLevel) (text : String) (w : World) :
    AddsTraces w (w.clientLog level text) := by
  unfold clientLog
  split
  · exact addsTraces_log ..
  · exact .refl w

/-- The log record of a message and the signal that comes with it are traces. -/
theorem addsTraces_logTraffic (direction arrow : String) (payload : Json) (w : World) :
    AddsTraces w (w.logTraffic direction arrow payload) := by
  unfold logTraffic
  have hlog := addsTraces_clientLog .debug (arrow ++ " " ++ Json.line .spaced payload) w
  dsimp only
  split
  · exact hlog.trans (addsOnly_record (e := .signalled (.trafficLogged ..)) rfl _)
  · exact hlog

theorem addsAsides_record {e : Event} (h : e.isAside) (w : World) : AddsAsides w (w.record e) :=
  addsOnly_record h w

theorem addsAsides_log (level : LogLevel) (text : String) (w : World) :
    AddsAsides w (w.log level text) :=
  (addsTraces_log ..).asides

theorem addsAsides_clientLog (level : LogLevel) (text : String) (w : World) :
    AddsAsides w (w.clientLog level text) :=
  (addsTraces_clientLog ..).asides

theorem addsAsides_logTraffic (direction arrow : String) (payload : Json) (w : World) :
    AddsAsides w (w.logTraffic direction arrow payload) :=
  (addsTraces_logTraffic ..).asides

/-- Every step of a message's way but the message itself is an aside. -/
theorem addsAsides_afterWrite (payload : Json) (r : Bool × World) :
    AddsAsides r.2 (afterWrite payload r).2 := by
  unfold afterWrite
  split
  · exact addsAsides_logTraffic ..
  · exact addsAsides_clientLog ..

/-- A listener that fails leaves a record, and no more than that, behind what it did. -/
theorem addsAsides_tell (x : Act World Unit) (w : World) : AddsAsides (x w).2 (w.tell x) := by
  unfold tell
  split
  · next hx => exact hx ▸ .refl _
  · next hx => exact hx ▸ addsAsides_record rfl _

theorem addsAsides_callBack (x : Act World Unit) (w : World) :
    AddsAsides (x w).2 (w.callBack x) := by
  unfold callBack
  split
  · next hx => exact hx ▸ .refl _
  · next hx => exact hx ▸ addsAsides_clientLog ..

/-- Closing drops all that waits, which may be logged before. -/
theorem closeClient_eq (w : World) : ∃ w₀, w.AddsAsides w₀ ∧
    w.closeClient = w₀.updateClient Client.disconnect := by
  unfold closeClient
  dsimp only
  split
  · exact ⟨w, .refl w, rfl⟩
  · exact ⟨_, addsAsides_clientLog .debug _ w, rfl⟩

theorem fst_afterWrite (payload : Json) (r : Bool × World) : (afterWrite payload r).1 = r.1 := by
  unfold afterWrite
  split <;> simp_all

theorem fst_post (payload : Json) (w : World) : (w.post payload).1 = w.transport.accepting := by
  rw [post, fst_afterWrite, transmit]
  split <;> simp_all

/-- A message that is accepted is sent, and nothing else but asides follows. -/
theorem post_adds (payload : Json) (w : World) : ∃ es, (∀ e ∈ es, e.isAside) ∧
    Adds w (w.post payload).2 ((if w.transport.accepting then [.sent payload] else []) ++ es) := by
  obtain ⟨es, he, ha⟩ := addsAsides_afterWrite payload (w.transmit payload)
  have hsent : Adds w (w.transmit payload).2
      (if w.transport.accepting then [.sent payload] else []) := by
    unfold transmit
    split
    · exact adds_record ..
    · exact .refl w
  exact ⟨es, ha, hsent.trans he⟩

/-- Where no answer is ready a request is sent like any other message. -/
theorem send_eq_post {run : Runner} {payload : Json} (h : w.transport.answerTo? payload = none) :
    send run payload w = w.post payload := by
  rw [send, h]

/-- What is refused is refused whether an answer is ready for it or not. -/
theorem send_of_refusing (run : Runner) (payload : Json)
    (refusing : w.transport.accepting = false) :
    ∃ w₁, w.AddsAsides w₁ ∧ send run payload w = (false, w₁) := by
  have htransmit : w.transmit payload = (false, w) := if_neg (by simp [refusing])
  have hafter : ∃ w₁, w.AddsAsides w₁ ∧ afterWrite payload (false, w) = (false, w₁) :=
    ⟨_, addsAsides_afterWrite payload (false, w), Prod.ext (fst_afterWrite ..) rfl⟩
  unfold send
  cases w.transport.answerTo? payload with
  | none => rwa [post, htransmit]
  | some answer =>
    have hwrite : writeAnswered run payload answer w = (false, w) := by
      simp only [writeAnswered, htransmit]
    simpa only [hwrite] using hafter

/-- Once a message was handed over, an answer that is ready for it is put off or delivered; all else
that happens are asides. -/
theorem send_cases (run : Runner) (payload : Json) (w : World) :
    ∃ w₁, w₁.AddsAsides (send run payload w).2 ∧ (w₁ = (w.transmit payload).2 ∨
      ∃ answer, w.transport.answerTo? payload = some answer ∧
        (w₁ = { (w.transmit payload).2 with transport := { (w.transmit payload).2.transport with
            arriving := (w.transmit payload).2.transport.arriving ++ [answer] } } ∨
          w₁ = (w.transmit payload).2.tell (run (.deliver (Frame.encode answer))))) := by
  unfold send
  cases w.transport.answerTo? payload with
  | none => exact ⟨_, addsAsides_afterWrite payload (w.transmit payload), .inl rfl⟩
  | some answer =>
    refine ⟨_, addsAsides_afterWrite payload (writeAnswered run payload answer w), ?_⟩
    unfold writeAnswered
    generalize w.transmit payload = r
    obtain ⟨_ | _, w₁⟩ := r
    · exact .inl rfl
    · dsimp only
      split
      · exact .inr ⟨answer, rfl, .inl rfl⟩
      · exact .inr ⟨answer, rfl, .inr rfl⟩

/-- A request that is accepted and has no answer yet is posted, and its call waits. -/
theorem request_eq_post (run : Runner) (kind : CallKind) (method params : Json)
    (onResult onError : List Continuation) (treatment : Treatment)
    (accepting : w.transport.accepting = true)
    (h : w.transport.answers.lookup method.textOrEmpty = none) :
    request run kind method params onResult onError treatment w =
      (w.client.nextId, ((w.updateClient fun c => c.addCall (.start w.client.nextId
        method.textOrEmpty kind onResult onError) treatment).post
          (Message.request (.int w.client.nextId) method.textOrEmpty params).toJson).2) := by
  let made := w.updateClient fun c =>
    c.addCall (.start w.client.nextId method.textOrEmpty kind onResult onError) treatment
  let payload := (Message.request (.int w.client.nextId) method.textOrEmpty params).toJson
  have hsend : send run payload made = made.post payload :=
    send_eq_post (Transport.answerTo?_request h _ params)
  have haccepted : (made.post payload).1 = true := (fst_post payload made).trans accepting
  unfold request
  dsimp only
  rw [hsend]
  generalize made.post payload = r at haccepted ⊢
  obtain ⟨accepted, w₁⟩ := r
  obtain rfl : accepted = true := haccepted
  rfl

/-- A notification changes nothing but the list of events. -/
theorem notify_adds (method : String) (params : Json) (w : World) :
    ∃ es, Adds w (w.notify method params) es := by
  obtain ⟨es, -, he⟩ := post_adds (Message.notification method params).toJson w
  exact ⟨_, he⟩

@[simp] theorem editor_notify (method : String) (params : Json) (w : World) :
    (w.notify method params).editor = w.editor := by
  obtain ⟨es, he⟩ := notify_adds method params w
  rw [he]

@[simp] theorem sessions_notify (method : String) (params : Json) (w : World) :
    (w.notify method params).sessions = w.sessions := by
  obtain ⟨es, he⟩ := notify_adds method params w
  rw [he]

@[simp] theorem controller_notify (method : String) (params : Json) (w : World) :
    (w.notify method params).controller = w.controller := by
  obtain ⟨es, he⟩ := notify_adds method params w
  rw [he]

/-- A status that only the terminal hears of is taken on, and nothing else happens. -/
theorem addsAsides_changeStatus (run : Runner)
    (hw : ∀ s ∈ w.assistant.subscriptions, s.topic = .status → s.subscriber = .terminal)
    (status : Status) : (w.updateAssistant fun a => { a with status := status }).AddsAsides
      (changeStatus run status w) := by
  unfold changeStatus
  dsimp only
  split
  · next hsame =>
    rw [hsame]
    exact .refl w
  · have hsignal := addsAsides_record (e := .signalled (.statusChanged w.assistant.status status))
      rfl (w.updateAssistant fun a => { a with status := status })
    refine List.foldlRecOn (motive := AddsAsides _) _ _ hsignal fun w₁ h s hs => h.trans ?_
    obtain ⟨hs, htopic⟩ := List.mem_filter.1 hs
    rw [tellSubscription, hw s hs (of_decide_eq_true htopic)]
    split
    · exact addsAsides_record (e := .printed (statusLine w.assistant.status status)) rfl w₁
    · exact .refl w₁

/-! ## Sessions -/

structure Beside (w w' : World) : Prop where
  transport : w'.transport = w.transport
  client : w'.client = w.client
  assistant : w'.assistant = w.assistant
  fetches : w'.fetches = w.fetches
  host : w'.host = w.host
  blocked : w'.editor.blocked = w.editor.blocked
  filePath : w'.editor.filePath = w.editor.filePath
  config : w'.controller.map Controller.config = w.controller.map Controller.config
  synced : w'.controller.map Controller.synced = w.controller.map Controller.synced
  listening : w'.controller.map Controller.listening = w.controller.map Controller.listening
  events : ∃ es, w'.events = w.events ++ es ∧ ∀ e ∈ es, e.isQuiet

namespace Beside

theorem refl (w : World) : Beside w w :=
  ⟨rfl, rfl, rfl, rfl, rfl, rfl, rfl, rfl, rfl, rfl, [], by simp⟩

theorem trans (h : Beside w w') (h' : Beside w' w'') : Beside w w'' := by
  obtain ⟨es, he, hq⟩ := h.events
  obtain ⟨es', he', hq'⟩ := h'.events
  exact ⟨h'.transport.trans h.transport, h'.client.trans h.client, h'.assistant.trans h.assistant,
    h'.fetches.trans h.fetches, h'.host.trans h.host, h'.blocked.trans h.blocked,
    h'.filePath.trans h.filePath, h'.config.trans h.config, h'.synced.trans h.synced,
    h'.listening.trans h.listening, es ++ es', by rw [he', he, List.append_assoc],
    List.forall_mem_append.2 ⟨hq, hq'⟩⟩

end Beside

theorem Adds.beside {es : List Event} (h : Adds w w' es) (hq : ∀ e ∈ es, e.isQuiet) :
    Beside w w' := by
  subst h
  exact ⟨rfl, rfl, rfl, rfl, rfl, rfl, rfl, rfl, rfl, rfl, es, rfl, hq⟩

theorem AddsAsides.beside (h : AddsAsides w w') : Beside w w' := by
  obtain ⟨es, he, ha⟩ := h
  exact he.beside fun e h => Event.isQuiet_of_isAside (ha e h)

/-- A notification has no identifier, and its method stands in its field. -/
theorem fields_of_classify {v params : Json} {method : String}
    (h : Message.classify v = .ok (.notification method params)) :
    v.field? "id" = none ∧ v.field? "method" = some (.str method) := by
  unfold Message.classify at h
  dsimp only at h
  repeat' (split at h <;> try contradiction)
  all_goals simp_all

/-- What has an identifier tells of no document. -/
theorem tellsOfDocument_of_id {v id : Json} (h : v.field? "id" = some id) :
    v.tellsOfDocument = false := by
  unfold Json.tellsOfDocument
  split
  · next hc => simp [(fields_of_classify hc).1] at h
  · rfl

/-- Only the notifications about documents tell of one. -/
theorem tellsOfDocument_notification {method : String} (h : isDocumentMethod method = false)
    (params : Json) : (Message.notification method params).toJson.tellsOfDocument = false := by
  unfold Json.tellsOfDocument
  split
  · next m p hc =>
    have hm : some (Json.str method) = some (.str m) := (fields_of_classify hc).2
    simp_all
  · rfl

/-- What has an identifier is no report. -/
theorem isReport_of_id {v id : Json} (h : v.field? "id" = some id) : v.isReport = false := by
  unfold Json.isReport
  split
  · next hc => simp [(fields_of_classify hc).1] at h
  · rfl

theorem isReport_notification {method : String} (h : reportMethods.contains method = false)
    (params : Json) : (Message.notification method params).toJson.isReport = false := by
  unfold Json.isReport
  split
  · next m p hc =>
    have hm : some (Json.str method) = some (.str m) := (fields_of_classify hc).2
    simp_all
  · rfl

/-- What has an identifier is no notice. -/
theorem documentNotice?_of_id {v id : Json} (h : v.field? "id" = some id) :
    v.documentNotice? = none := by
  unfold Json.documentNotice?
  split
  · next hc => simp [(fields_of_classify hc).1] at h
  · rfl

theorem documentNotice?_notification {method : String} (h : isNoticeMethod method = false)
    (params : Json) : (Message.notification method params).toJson.documentNotice? = none := by
  unfold Json.documentNotice?
  split
  · next m p hc =>
    have hm : some (Json.str method) = some (.str m) := (fields_of_classify hc).2
    obtain rfl := Json.str.inj (Option.some.inj hm)
    exact DocumentNotice.ofMethod?_eq_none h _
  · rfl

/-- A message that is no notice of a document changes nothing but the events. -/
theorem beside_notify {method : String} (h : isNoticeMethod method = false) (params : Json)
    (w : World) : Beside w (w.notify method params) := by
  obtain ⟨es, ha, he⟩ := post_adds (Message.notification method params).toJson w
  refine he.beside (List.forall_mem_append.2 ⟨?_, fun e h => Event.isQuiet_of_isAside (ha e h)⟩)
  split
  · simp [Event.isQuiet, documentNotice?_notification h]
  · simp

theorem beside_record {e : Event} (h : e.isQuiet) (w : World) : Beside w (w.record e) :=
  (adds_record e w).beside (by simpa using h)

theorem beside_updateSession (n : Nat) (f : Session → Session) (w : World) :
    Beside w (w.updateSession n f) :=
  ⟨rfl, rfl, rfl, rfl, rfl, rfl, rfl, rfl, rfl, rfl, [], by simp [updateSession]⟩

theorem beside_updateCanvas (f : Canvas → Canvas) (w : World) : Beside w (w.updateCanvas f) :=
  ⟨rfl, rfl, rfl, rfl, rfl, rfl, rfl, rfl, rfl, rfl, [], by simp [updateCanvas, updateEditor]⟩

theorem beside_stopListening (n : Nat) (w : World) : Beside w (w.stopListening n) :=
  ⟨rfl, rfl, rfl, rfl, rfl, rfl, rfl, rfl, rfl, rfl, [], by simp [stopListening, updateEditor]⟩

/-- A change of the controller that concerns its session or the change that waits. -/
theorem beside_updateController {f : Controller → Controller} (hc : ∀ c, (f c).config = c.config)
    (hs : ∀ c, (f c).synced = c.synced) (hl : ∀ c, (f c).listening = c.listening) (w : World) :
    Beside w (w.updateController f) := by
  refine ⟨rfl, rfl, rfl, rfl, rfl, rfl, rfl, ?_, ?_, ?_, [], by simp [updateController]⟩ <;>
  cases h : w.controller <;> simp [updateController, h, hc, hs, hl]

theorem beside_beginClosing (n : Nat) (w : World) : Beside w (w.beginClosing n) :=
  (beside_updateSession ..).trans (beside_stopListening ..)

theorem beside_removeSuggestion (n : Nat) (s : Session) (w : World) :
    Beside w (w.removeSuggestion n s).2 := by
  unfold removeSuggestion
  cases s.artifact with
  | none => exact .refl w
  | some a =>
    cases hf : a.find? w.canvas with
    | none =>
      simp only [hf]
      exact .refl w
    | some _ =>
      simp only [hf]
      refine Beside.trans ?_ (beside_updateCanvas ..)
      refine Beside.trans ?_ (beside_updateCanvas ..)
      exact beside_updateSession ..

theorem beside_releaseSession (n : Nat) (w : World) : Beside w (w.releaseSession n) := by
  apply beside_updateController <;> intro c <;> split <;> rfl

theorem beside_announceEnd (n : Nat) (w : World) : Beside w (w.announceEnd n) := by
  unfold announceEnd
  cases w.session? n with
  | none => exact .refl w
  | some s =>
    dsimp only
    split
    · exact (beside_releaseSession ..).trans (beside_record rfl _)
    · exact beside_record rfl _

theorem beside_notifyShown (uuid : String) (w : World) : Beside w (w.notifyShown uuid) :=
  beside_notify rfl ..

theorem beside_notifyAccepted (uuid : String) (w : World) : Beside w (w.notifyAccepted uuid) :=
  beside_notify rfl ..

theorem beside_notifyRejected (uuids : List String) (w : World) :
    Beside w (w.notifyRejected uuids) :=
  beside_notify rfl ..

theorem beside_finishRejected (n : Nat) (uuid reason : String) (w : World) :
    Beside w (w.finishRejected n uuid reason) :=
  (beside_updateSession ..).trans ((beside_notifyRejected ..).trans
    ((addsAsides_log ..).beside.trans (beside_announceEnd ..)))

theorem beside_finishAccepted (n : Nat) (uuid : String) (w : World) :
    Beside w (w.finishAccepted n uuid) :=
  (beside_updateSession ..).trans ((beside_notifyAccepted ..).trans
    ((addsAsides_log ..).beside.trans (beside_announceEnd ..)))

theorem beside_rejectSession (n : Nat) (reason : String) (w : World) :
    Beside w (w.rejectSession n reason).2 := by
  unfold rejectSession
  cases w.session? n with
  | none => exact .refl w
  | some s =>
    dsimp only
    split
    · exact .refl w
    · exact (beside_beginClosing ..).trans
        ((beside_removeSuggestion ..).trans (beside_finishRejected ..))

theorem beside_rejectCurrent (reason : String) (w : World) :
    Beside w (w.rejectCurrent reason).2 := by
  unfold rejectCurrent
  split
  · exact .refl w
  · exact beside_rejectSession ..

theorem beside_noteChange (w : World) : Beside w w.noteChange := by
  unfold noteChange
  cases h : w.controller with
  | none => exact .refl w
  | some c =>
    dsimp only
    split
    · exact .refl w
    · refine Beside.trans ?_ (beside_updateController ?_ ?_ ?_ _)
      · refine Beside.trans ?_ (beside_rejectCurrent ..)
        exact beside_updateController (by intro; rfl) (by intro; rfl) (by intro; rfl) w
      all_goals
        intro
        rfl

theorem beside_startSession (n : Nat) (s : Session) (w : World) :
    Beside w (w.startSession n s) := by
  have hlisten : ∀ w : World, Beside w
      (w.updateEditor fun e => { e with listeners := e.listeners ++ [n] }) := fun w =>
    ⟨rfl, rfl, rfl, rfl, rfl, rfl, rfl, rfl, rfl, rfl, [], by simp [updateEditor]⟩
  unfold startSession
  refine Beside.trans ?_ (hlisten _)
  refine Beside.trans ?_ (beside_notifyShown ..)
  refine Beside.trans ?_ (beside_updateSession ..)
  exact beside_updateCanvas ..

theorem beside_propose (s : Session) (w : World) :
    Beside w { w with sessions := w.sessions ++ [s] } :=
  ⟨rfl, rfl, rfl, rfl, rfl, rfl, rfl, rfl, rfl, rfl, [], by simp⟩

theorem beside_bring (completion : Completion) (c : Controller) (w : World) :
    Beside w (w.bring completion c) := by
  unfold bring
  refine Beside.trans ?_ (beside_record rfl _)
  refine Beside.trans ?_ (beside_startSession ..)
  refine Beside.trans ?_
    (beside_updateController (by intro; rfl) (by intro; rfl) (by intro; rfl) _)
  exact beside_propose ..

end World

/-- Whatever step a session takes, the client, the fetches and the host stay as they are. -/
theorem SessionStep.beside {k : Regime} {w w' : World} (h : SessionStep k w w') :
    w.Beside w' := by
  cases h with
  | propose _ _ _ => exact World.beside_propose _ w
  | start _ _ _ _ => exact World.beside_startSession ..
  | bring completion _ _ => exact World.beside_bring completion _ w
  | withdraw _ _ _ => exact (World.beside_beginClosing ..).trans (World.beside_removeSuggestion ..)
  | discard reason _ _ _ =>
    exact (World.beside_beginClosing ..).trans (World.beside_finishRejected _ _ reason _)
  | fail reason _ _ _ => exact World.beside_finishRejected _ _ reason w
  | succeed _ _ _ => exact World.beside_finishAccepted _ _ w

/-- What the sessions do turns to no other file. -/
theorem World.Beside.sameFile {w w' : World} (h : w.Beside w') : w.SameFile w' := by
  obtain ⟨es, he, hq⟩ := h.events
  exact .of_events (by rw [h.transport]) (by rw [h.fetches]) he
    fun e hm => Event.documentNotice?_of_isQuiet (hq e hm)

/-! ## The document -/

namespace World

def openingOf (uri languageId text : Json) : Json :=
  (Message.notification "textDocument/didOpen" (.obj [("textDocument", .obj
    [("uri", .str uri.textOrEmpty), ("languageId", .str (languageId.textOr "plaintext")),
      ("version", .int 0), ("text", .str text.textOrEmpty)])])).toJson

def changeOf (uri : Json) (version : Int) (changes : List Json) : Json :=
  (Message.notification "textDocument/didChange" (.obj
    [("textDocument", .obj [("uri", .str uri.textOrEmpty), ("version", .int version)]),
      ("contentChanges", .arr changes)])).toJson

/-- A document is opened at version zero, and the server is told. -/
theorem openAtZero_adds (uri languageId text : Json) (w : World) : ∃ es, (∀ e ∈ es, e.isAside) ∧
    Adds { w with assistant := { w.assistant with version := 0 } }
      (w.openAtZero uri languageId text)
      ((if w.transport.accepting then [.sent (openingOf uri languageId text)] else []) ++ es) :=
  post_adds (openingOf uri languageId text)
    { w with assistant := { w.assistant with version := 0 } }

/-- The changes as they are sent, one by one. -/
def entriesOf (change : PendingChange) : Option (List TextChange) → List Json
  | none => [.obj [("text", .str (String.ofList change.text))]]
  | some edits => Diff.inTurn edits

theorem contentChanges_eq (change : PendingChange) (edits : Option (List TextChange)) :
    contentChanges change edits = .arr (entriesOf change edits) := by
  cases edits <;> rfl

theorem snd_changeVersion (uri changes : Json) (w : World) : (changeVersion uri changes w).2 =
    (didChange uri (.int (w.assistant.version + 1 : Nat)) changes
      (w.updateAssistant fun a => { a with version := w.assistant.version + 1 })).2 := by
  unfold changeVersion
  dsimp only [updateAssistant]
  generalize didChange _ _ _ _ = r
  obtain ⟨_ | _, w₁⟩ := r
  · rfl
  · rfl

/-- A change is told under the next version. -/
theorem changeVersion_adds (uri : Json) (entries : List Json) (w : World) :
    (changeVersion uri (.arr entries) w).1 = .ok (w.assistant.version + 1) ∧
      ∃ es, (∀ e ∈ es, e.isAside) ∧
        Adds { w with assistant := { w.assistant with version := w.assistant.version + 1 } }
          (changeVersion uri (.arr entries) w).2
          ((if w.transport.accepting then
            [.sent (changeOf uri (w.assistant.version + 1 : Nat) entries)] else []) ++ es) :=
  ⟨rfl, post_adds (changeOf uri (w.assistant.version + 1 : Nat) entries)
    { w with assistant := { w.assistant with version := w.assistant.version + 1 } }⟩

end World

/-- The server is told of the document. What is sent is no report, all else that is added are
asides, and besides the version and the texts that are remembered everything stays as it is. -/
structure World.Informs (w w' : World) : Prop where
  client : w'.client = w.client
  host : w'.host = w.host
  transport : w'.transport = w.transport
  editor : w'.editor = w.editor
  sessions : w'.sessions = w.sessions
  fetches : w'.fetches = w.fetches
  config : w'.controller.map Controller.config = w.controller.map Controller.config
  session : w'.controller.map Controller.session = w.controller.map Controller.session
  events : ∃ es, w'.events = w.events ++ es ∧
    ∀ e ∈ es, e.isAside ∨ ∃ v, e = .sent v ∧ v.isReport = false

/-- A message about the document is posted, and texts are remembered. -/
theorem World.Informs.of_posts {w w' : World} {v : Json} {es : List Event} {n : Nat}
    {f : Controller → Controller} (report : v.isReport = false) (asides : ∀ e ∈ es, e.isAside)
    (posts : Adds { w with assistant := { w.assistant with version := n } } w'
      ((if w.transport.accepting then [.sent v] else []) ++ es))
    (config : ∀ c, (f c).config = c.config) (session : ∀ c, (f c).session = c.session) :
    w.Informs (w'.updateController f) := by
  subst posts
  refine ⟨rfl, rfl, rfl, rfl, rfl, rfl, ?_, ?_, _, rfl, fun e he => ?_⟩
  · simp only [updateController, Option.map_map, Function.comp_def, config]
  · simp only [updateController, Option.map_map, Function.comp_def, session]
  · rcases List.mem_append.1 he with he | he
    · split at he
      · exact .inr ⟨v, List.mem_singleton.1 he, report⟩
      · cases he
    · exact .inl (asides e he)

theorem DocumentStep.informs {w w' : World} (h : DocumentStep w w') : w.Informs w' := by
  cases h with
  | openUnder uri =>
    obtain ⟨es, asides, posts⟩ := w.openAtZero_adds (.str uri) (.str w.editor.languageId)
      (.str (String.ofList w.buffer.text))
    exact .of_posts (World.isReport_notification rfl _) asides posts (fun _ => rfl) fun _ => rfl
  | @tell c uri change edits =>
    obtain ⟨-, es, asides, posts⟩ :=
      w.changeVersion_adds (.str uri) (World.entriesOf change edits)
    rw [World.contentChanges_eq]
    exact .of_posts (World.isReport_notification rfl _) asides posts (fun _ => rfl) fun _ => rfl

end GhostText
