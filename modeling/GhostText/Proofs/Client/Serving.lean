import GhostText.Proofs.Client.Inbox
import GhostText.Proofs.Client.Settling
import GhostText.Proofs.Run.Reticence

/-!
# Requests of the peer are answered once

Requests and notifications come, and the host answers what its handlers have kept, in any order and
as often as it likes. Whatever its handlers do meanwhile, the client goes a row of steps of its
inbox, and every answer that is given in one of them is sent.
-/

namespace GhostText

/-- With these a script acts on messages of the peer, its own or those that were kept, and fails. An
error has an integer for its code. -/
def Action.serves : Action → Bool
  | .within _ _ => true
  | .raise _ => true
  | .context (.send _) => false
  | .context (.reject code _ _) => code.isInteger
  | .context _ => true
  | _ => false

def Conduct.serving : Conduct := .ofKind Action.serves

theorem Conduct.allows_ofKind {kind : Action → Bool} {a : Action}
    (h : kind a && a.inner.isEmpty) : (Conduct.ofKind kind).Allows a := by
  simp only [Bool.and_eq_true, List.isEmpty_iff] at h
  exact .intro h.1 (fun _ _ _ _ _ => trivial) (by simp [h.2])

theorem Conduct.allows_within {kind : Action → Bool} {n : Nat} {a : Action}
    (h : kind (.within n a)) (ha : (Conduct.ofKind kind).Allows a) :
    (Conduct.ofKind kind).Allows (.within n a) :=
  .intro h (fun _ _ _ _ _ => trivial) (by simpa [Action.inner, Action.registered] using ha)

/-- The message of a number has come, and if it is a request it was handed to a handler. -/
def Client.Answerable (c : Client) (n : Nat) : Prop :=
  ∃ k, c.context? n = some k ∧ (k.isRequest = true → (c.handlers.request? k.method).isSome = true)

/-- Somebody answers the requests of a method. -/
def Client.heeds (method : String) (c : Client) : Bool :=
  (c.handlers.request? method).isSome || isReserved method

/-- The request that comes with a body, if one does. -/
def Frame.Body.request? : Frame.Body → Option (Json × String × Json)
  | .value v =>
    match Message.classify v with
    | .ok (.request id method params) => some (id, method, params)
    | _ => none
  | .malformed _ _ => none

/-- A body brings no request that would be open under the identifier of another one. -/
def Client.admits (b : Frame.Body) (c : Client) : Bool :=
  b.request?.all fun r => !(c.heeds r.2.1 && Client.contains (c.openIds 0) r.1)

/-- A request that is understood has an identifier. -/
theorem Message.isId_of_classify {v id params : Json} {method : String}
    (h : Message.classify v = .ok (.request id method params)) : Message.isId id = true := by
  unfold Message.classify at h
  dsimp only at h
  repeat' (split at h <;> try contradiction)
  all_goals simp_all

def Event.payload? : Event → Option Json
  | .sent payload => some payload
  | _ => none

theorem Event.payload?_of_isAside {e : Event} (h : e.isAside) : e.payload? = none := by
  cases e <;> simp_all [Event.isAside, Event.payload?]

theorem Event.payloads_asides {es : List Event} (ha : ∀ e ∈ es, e.isAside) :
    es.filterMap Event.payload? = [] :=
  List.filterMap_eq_nil_iff.2 fun e he => Event.payload?_of_isAside (ha e he)

namespace World

def sentPayloads (w : World) : List Json := w.events.filterMap Event.payload?

/-- No call waits, nobody has subscribed, the handlers do nothing but answer the peer, and what was
kept of its requests was handed to one of them. -/
structure Serving (w : World) : Prop where
  pending : w.client.pending = []
  subscriptions : w.assistant.subscriptions = []
  handlers : Conduct.serving.Handles w.client.handlers
  deferred : ∀ n ∈ w.host.deferred, w.client.Answerable n

/-- The client has gone a row of steps of its inbox, and the answers given in them were sent. -/
structure Serves (w w' : World) (told : List (Nat × Json)) : Prop where
  steps : Client.InboxSteps w.client w'.client told
  pending : w.client.pending = [] → w'.client.pending = []
  subscriptions : w'.assistant.subscriptions = w.assistant.subscriptions
  transport : w'.transport = w.transport
  deferred : ∀ n ∈ w'.host.deferred, n ∈ w.host.deferred ∨ w'.client.Answerable n
  sent : w'.sentPayloads =
    w.sentPayloads ++ if w.transport.accepting then told.map Prod.snd else []

def Attends (w w' : World) : Prop := ∃ told, w.Serves w' told

variable {w w' w'' : World} {told more : List (Nat × Json)} {n : Nat}

end World

/-- A request that may be answered may still be after others have been. -/
theorem Client.InboxSteps.answerable {c c' : Client} {told : List (Nat × Json)} {n : Nat}
    (h : c.InboxSteps c' told) (hn : c.Answerable n) : c'.Answerable n := by
  obtain ⟨k, hk, handled⟩ := hn
  obtain ⟨k', hk', hlasts⟩ := h.lasts hk
  refine ⟨k', hk', fun hr => ?_⟩
  rw [h.handlers, hlasts.method]
  exact handled (hlasts.isRequest ▸ hr)

namespace World

variable {w w' w'' : World} {told more : List (Nat × Json)} {n : Nat}

theorem Serves.serving (h : w.Serves w' told) (hw : w.Serving) : w'.Serving :=
  ⟨h.pending hw.pending, h.subscriptions.trans hw.subscriptions,
    h.steps.handlers ▸ hw.handlers,
    fun n hn => (h.deferred n hn).elim (fun hn => h.steps.answerable (hw.deferred n hn)) id⟩

theorem Serves.trans (h : w.Serves w' told) (h' : w'.Serves w'' more) :
    w.Serves w'' (told ++ more) := by
  refine ⟨h.steps.trans h'.steps, fun hp => h'.pending (h.pending hp),
    h'.subscriptions.trans h.subscriptions, h'.transport.trans h.transport, fun n hn => ?_, ?_⟩
  · rcases h'.deferred n hn with hn | hn
    · exact (h.deferred n hn).imp_right h'.steps.answerable
    · exact .inr hn
  · rw [h'.sent, h.sent, h.transport, List.append_assoc]
    cases w.transport.accepting <;> simp

theorem Attends.refl (w : World) : w.Attends w :=
  ⟨[], .refl, fun hp => hp, rfl, rfl, fun _ hn => .inl hn, by simp⟩

theorem Attends.trans (h : w.Attends w') (h' : w'.Attends w'') : w.Attends w'' := by
  obtain ⟨told, h⟩ := h
  obtain ⟨more, h'⟩ := h'
  exact ⟨_, h.trans h'⟩

theorem Attends.serving (h : w.Attends w') (hw : w.Serving) : w'.Serving := by
  obtain ⟨told, h⟩ := h
  exact h.serving hw

theorem Attends.answerable (h : w.Attends w') (hn : w.client.Answerable n) :
    w'.client.Answerable n := by
  obtain ⟨told, h⟩ := h
  exact h.steps.answerable hn

/-- Nothing but the list of events changes, and no message is sent. -/
theorem AddsAsides.attends (h : AddsAsides w w') : w.Attends w' := by
  obtain ⟨es, rfl, ha⟩ := h
  have hnone := Event.payloads_asides ha
  exact ⟨[], .refl, fun hp => hp, rfl, rfl, fun _ hn => .inl hn, by simp [sentPayloads, hnone]⟩

theorem attends_record {e : Event} (h : e.payload? = none) (w : World) : w.Attends (w.record e) :=
  ⟨[], .refl, fun hp => hp, rfl, rfl, fun _ hn => .inl hn, by simp [sentPayloads, record, h]⟩

theorem attends_clientLog (level : LogLevel) (text : String) (w : World) :
    w.Attends (w.clientLog level text) :=
  (addsAsides_clientLog ..).attends

/-- The client goes a step in which nothing is answered. -/
theorem attends_client {c : Client} (step : w.client.InboxStep c [])
    (pending : c.pending = w.client.pending) : w.Attends { w with client := c } :=
  ⟨[], step.single, fun hp => pending.trans hp, rfl, rfl, fun _ hn => .inl hn, by
    simp [sentPayloads]⟩

/-- The client goes a step in which a request is answered, and the answer is sent. -/
theorem attends_post {c : Client} {payload : Json} (step : w.client.InboxStep c [(n, payload)])
    (pending : c.pending = w.client.pending) :
    w.Attends (({ w with client := c } : World).post payload).2 := by
  obtain ⟨es, ha, he⟩ := post_adds payload { w with client := c }
  have hnone := Event.payloads_asides ha
  rw [he]
  refine ⟨_, step.single, fun hp => pending.trans hp, rfl, rfl, fun _ hn => .inl hn, ?_⟩
  cases w.transport.accepting <;> simp [sentPayloads, hnone, Event.payload?]

/-! ## Answers -/

theorem pending_conclude (n : Nat) (id : Json) (c : Client) :
    (c.conclude n id).pending = c.pending := by
  rw [Client.conclude, Client.consumeCancelled_eq]
  rfl

/-- A request that is not answered yet is answered by the first answer that is given. -/
theorem attends_reply {k : Context} (found : w.client.context? n = some k)
    (isRequest : k.isRequest = true) (unanswered : k.answered = false)
    (handled : (w.client.handlers.request? k.method).isSome = true) (result : Json)
    (error : Option ResponseError) : w.Attends
      ((w.updateClient (Client.conclude n k.id)).post
        (Message.response k.id result error).toJson).2 :=
  attends_post (.answer found isRequest unanswered handled result error) (pending_conclude ..)

theorem attends_succeed (hn : w.client.Answerable n) (value : Json) :
    w.Attends (w.succeed n value) := by
  obtain ⟨k, found, handled⟩ := hn
  by_cases h : k.isRequest = true ∧ k.answered = false
  · rw [succeed_eq found h.1 h.2, answerOf]
    split <;> exact attends_reply found h.1 h.2 (handled h.1) ..
  · exact (addsAsides_succeed found h value).attends

theorem attends_failWith (hn : w.client.Answerable n) (e : ResponseError) :
    w.Attends (failWith n (.ok e) w).2 := by
  obtain ⟨k, found, handled⟩ := hn
  by_cases h : k.isRequest = true ∧ k.answered = false
  · rw [failWith_eq found h.1 h.2]
    exact attends_reply found h.1 h.2 (handled h.1) .null (some e)
  · exact (addsAsides_failWith found h (.ok e)).attends

/-! ## Scripts -/

theorem attends_suppressLogging (n : Nat) (w : World) : w.Attends (w.suppressLogging n) :=
  attends_client (.suppress n) rfl

/-- Whatever a handler does with its message, the message is answered at most once. -/
theorem attends_performContext (run : Runner) (hn : w.client.Answerable n) {a : ContextAction}
    (ha : (Action.context a).serves) : w.Attends (performContext run n a w).2 := by
  cases a with
  | succeed value => exact attends_succeed hn value
  | reject code message data =>
    cases code with
    | int m => exact attends_failWith hn ⟨m, message.shown, data⟩
    | _ => cases ha
  | suppressLogging => exact attends_suppressLogging n w
  | defer =>
    refine ⟨[], .refl, fun hp => hp, rfl, rfl, fun m hm => ?_, ?_⟩
    · simp only [performContext, updateHost, List.mem_append, List.mem_singleton] at hm
      refine hm.imp_right ?_
      rintro rfl
      exact hn
    · simp [performContext, updateHost, sentPayloads]
  | log level text => exact attends_clientLog ..
  | send m => cases ha
  | view =>
    unfold performContext
    dsimp only
    split
    · exact .refl w
    · exact attends_record rfl w

theorem attends_perform (run : Runner) {a : Action} (ha : Conduct.serving.Allows a)
    {context : Option Nat} (hw : w.Serving) (hn : ∀ n ∈ context, w.client.Answerable n) :
    w.Attends (perform run context a w).2 := by
  induction ha generalizing context with
  | @intro a does _ inner ih =>
    cases a with
    | within m b =>
      refine ih b (by simp [Action.inner, Action.registered]) fun n hn => ?_
      exact hw.deferred n (List.mem_of_getElem? hn)
    | raise f => exact .refl w
    | context a =>
      cases context with
      | none => exact .refl w
      | some n => exact attends_performContext run (hn n rfl) does
    | _ => cases does

theorem attends_performAll (run : Runner) {s : Script} (hs : Conduct.serving.AllowsAll s)
    {context : Option Nat} (hw : w.Serving) (hn : ∀ n ∈ context, w.client.Answerable n) :
    w.Attends (performAll run context s w).2 :=
  performAll_preserves (.refl w) fun _ h a ha =>
    h.trans (attends_perform run (hs a ha) (h.serving hw) fun n hm => h.answerable (hn n hm))

end World

def Runner.Serves (run : Runner) : Prop :=
  ∀ context s, Conduct.serving.AllowsAll s → ∀ w : World, w.Serving →
    (∀ n ∈ context, w.client.Answerable n) → w.Attends (run (.script context s) w).2

namespace World

/-- At every depth scripts that only answer attend to the requests of the peer. -/
theorem serves_runTo (depth : Nat) : (runTo depth).Serves := by
  intro context s hs w hw hn
  cases depth with
  | zero => exact .refl w
  | succ depth => exact attends_performAll _ hs hw hn

variable {w w' w'' : World} {n : Nat}

/-! ## Handlers -/

theorem attends_changeRegistrations (hn : w.client.Answerable n)
    (change : Registrations → Except Fault Registrations) :
    w.Attends (changeRegistrations n change w).2 := by
  unfold changeRegistrations
  cases change w.client.registrations with
  | error f => exact .refl w
  | ok rs =>
    have hchange : w.Attends (w.updateClient fun c => { c with registrations := rs }) :=
      attends_client (.aside rfl rfl rfl rfl) rfl
    exact hchange.trans (attends_succeed (hchange.answerable hn) .null)

theorem attends_takeReserved (params : Json) (r : ReservedNotification) (w : World) :
    w.Attends (takeReserved n params r w).2 := by
  cases r with
  | cancelRequest =>
    unfold takeReserved
    dsimp only
    split
    · exact .refl w
    · next hnull =>
      split
      · exact .refl w
      · next c marked =>
        refine attends_client (.cancel (Bool.eq_false_iff.2 hnull) marked) ?_
        rw [(Client.context?_of_markCancelled marked).1]
  | progress => exact attends_record rfl w
  | logTrace => exact attends_clientLog ..
  | logMessage =>
    have hsuppress := attends_suppressLogging n w
    unfold takeReserved
    dsimp only
    split
    · exact hsuppress
    · exact hsuppress.trans (attends_clientLog ..)

/-- Where nobody has subscribed a change of the status is told to nobody. -/
theorem attends_changeStatus {run : Runner} (h : w.assistant.subscriptions = []) (status : Status) :
    w.Attends (changeStatus run status w) := by
  have hstatus : w.Attends (w.updateAssistant fun a => { a with status := status }) :=
    ⟨[], .refl, fun hp => hp, rfl, rfl, fun _ hn => .inl hn, by
      simp [sentPayloads, updateAssistant]⟩
  exact hstatus.trans (addsAsides_changeStatus run (by simp [h]) status).attends

section Running

variable {run : Runner} (hr : run.Serves) (hw : w.Serving)

include hr hw

theorem attends_callRequestHandler (hn : w.client.Answerable n) (method : String)
    (params id : Json) {h : RequestHandler} (hh : ∀ kind script, h = .user kind (some script) →
      Conduct.serving.AllowsAll script) :
    w.Attends (callRequestHandler run n method params id h w).2 := by
  cases h with
  | user kind script =>
    cases script with
    | none => exact .refl w
    | some script =>
      have hrecord : w.Attends (w.record (.handled method params id true)) := attends_record rfl w
      refine hrecord.trans (hr _ _ (hh kind script rfl) _ (hrecord.serving hw) ?_)
      rintro m ⟨⟩
      exact hrecord.answerable hn
  | reserved r => cases r <;> exact attends_changeRegistrations hn _

theorem attends_callNotificationHandler (hn : w.client.Answerable n) (method : String)
    (params : Json) {h : NotificationHandler}
    (hh : ∀ script, h = .user (.script script) → Conduct.serving.AllowsAll script) :
    w.Attends (callNotificationHandler run n method params h w).2 := by
  cases h with
  | reserved r => exact attends_takeReserved ..
  | user e =>
    cases e with
    | script script =>
      have hrecord : w.Attends (w.record (.handled method params .null false)) :=
        attends_record rfl w
      refine hrecord.trans (hr _ _ (hh script rfl) _ (hrecord.serving hw) ?_)
      rintro m ⟨⟩
      exact hrecord.answerable hn
    | serverLog => exact (attends_suppressLogging n w).trans (attends_clientLog ..)
    | serverStatus =>
      unfold callNotificationHandler takeServerStatus
      dsimp only
      split
      · exact attends_changeStatus hw.subscriptions _
      · exact attends_clientLog ..
    | _ => exact .refl w

end Running

/-! ## Messages -/

theorem attends_logIncoming (n : Nat) (v : Json) (w : World) : w.Attends (w.logIncoming n v) := by
  unfold logIncoming
  split
  · exact .refl w
  · exact (addsAsides_logTraffic ..).attends

/-- Where no call waits a response is only logged. -/
theorem attends_handleResponse {run : Runner} (hp : w.client.pending = []) (id result : Json)
    (error : Option ResponseError) : w.Attends (handleResponse run id result error w) := by
  have hnone : w.client.pendingFor? id = none := by
    unfold Client.pendingFor?
    split
    · simp [hp]
    · rfl
  exact (handleResponse_of_none run hnone result error).attends

/-- A message that was opened last. -/
theorem context?_openContext (method : String) (id : Json) (isRequest : Bool) (w : World) :
    (w.openContext method id isRequest).2.client.context? w.client.contexts.length =
      some ⟨method, id, isRequest, false, false⟩ := by
  rw [openContext]
  exact (Client.context?_addContext ..).trans (if_pos rfl)

/-- A request that nobody handles is turned down if its method is reserved, and else it is left
alone. -/
theorem attends_unhandled {run : Runner} {id : Json} {method : String} (params : Json)
    (hid : Message.isId id) (unhandled : w.client.handlers.request? method = none)
    (unused : isReserved method = true → Client.contains (w.client.openIds 0) id = false) :
    w.Attends (handleRequest run w.client.contexts.length id method params
      (w.openContext method id true).2) := by
  have hfound := context?_openContext method id true w
  have hhandlers : (w.openContext method id true).2.client.handlers.request? method = none :=
    unhandled
  unfold handleRequest
  rw [hhandlers]
  dsimp only
  split
  · next hreserved =>
    rw [failAs, failWith_eq hfound rfl rfl]
    exact attends_post (.refuse hid unhandled hreserved (unused hreserved) ..)
      ((pending_conclude ..).trans rfl)
  · have hopen : w.Attends (w.openContext method id true).2 :=
      attends_client (.pass (fun _ => hid) fun _ => unhandled) rfl
    exact hopen.trans (attends_clientLog ..)

section Running

variable {run : Runner} (hr : run.Serves) (hw : w.Serving)

include hr hw

theorem attends_handleNotification (method : String) (params : Json) :
    w.Attends (handleNotification run w.client.contexts.length method params
      (w.openContext method .null false).2) := by
  have hopen : w.Attends (w.openContext method .null false).2 :=
    attends_client (.pass (by simp) (by simp)) rfl
  have hn : (w.openContext method .null false).2.client.Answerable w.client.contexts.length :=
    ⟨_, context?_openContext .., by simp⟩
  have hw₁ := hopen.serving hw
  generalize (w.openContext method .null false).2 = w₁ at hopen hn hw₁ ⊢
  unfold handleNotification
  refine (hopen.trans ?_).trans (attends_record rfl _)
  cases hh : w₁.client.handlers.notification? method with
  | none => exact .refl w₁
  | some h =>
    have hcalled := attends_callNotificationHandler hr hw₁ hn method params (h := h) ?_
    · dsimp only
      generalize callNotificationHandler run _ method params h w₁ = r at hcalled ⊢
      obtain ⟨_ | _, w₂⟩ := r
      · exact hcalled.trans (attends_clientLog ..)
      · exact hcalled
    · rintro script rfl
      exact allows_notification? (k := Conduct.serving.free) hw₁.handlers hh

omit hr hw in
/-- A request that comes to a handler is open from there on, if its identifier is not in use. -/
theorem attends_handed {id : Json} {method : String} (hid : Message.isId id)
    (handled : (w.client.handlers.request? method).isSome = true)
    (unused : Client.contains (w.client.openIds 0) id = false) :
    w.Attends (w.handed method id) ∧
      (w.handed method id).client.Answerable w.client.contexts.length :=
  ⟨attends_client (.hand hid handled unused) rfl,
    ⟨method, id, true, false, false⟩, context?_openContext method id true w, fun _ => handled⟩

omit hr hw in
/-- A handler that fails has its request answered for it. -/
theorem attends_handlerFailed (hn : w.client.Answerable n) (method : String) (f : Fault) :
    w.Attends (w.handlerFailed n method f) := by
  have hlog := attends_clientLog .error ("Handler for " ++ method ++ " raised") w
  unfold handlerFailed
  dsimp only
  split
  · exact hlog
  · exact hlog.trans (attends_failWith (hlog.answerable hn) _)

/-- A request is handed to its handler, and if that fails it is answered. -/
theorem attends_handled {id : Json} {method : String} (params : Json) (hid : Message.isId id)
    {h : RequestHandler} (handled : w.client.handlers.request? method = some h)
    (unused : Client.contains (w.client.openIds 0) id = false) :
    w.Attends (handleRequest run w.client.contexts.length id method params
      (w.openContext method id true).2) := by
  obtain ⟨hhand, hn⟩ := attends_handed hid (by rw [handled]; rfl) unused
  have hcalled := attends_callRequestHandler hr (hhand.serving hw) hn method params id (h := h)
    fun kind script he =>
      allows_request? (k := Conduct.serving.free) (hhand.serving hw).handlers (he ▸ handled)
  have hn₁ := hcalled.answerable hn
  rw [handleRequest_eq handled]
  generalize callRequestHandler run w.client.contexts.length method params id h
    (w.handed method id) = r at hcalled hn₁ ⊢
  obtain ⟨_ | _, w₁⟩ := r
  · exact (hhand.trans hcalled).trans (attends_handlerFailed hn₁ ..)
  · exact hhand.trans hcalled

/-- Whatever comes is attended to, unless it is a request under the identifier of an open one. -/
theorem attends_dispatch {b : Frame.Body} (admitted : w.client.admits b = true) :
    w.Attends (dispatch run w b) := by
  cases b with
  | malformed raw e => exact attends_clientLog ..
  | value v =>
    cases hm : Message.classify v with
    | error violation =>
      rw [dispatch, hm]
      exact attends_clientLog ..
    | ok m =>
      rw [dispatch_of_classify run hm]
      cases m with
      | request id method params =>
        have hid := Message.isId_of_classify hm
        refine Attends.trans ?_ (attends_logIncoming w.client.contexts.length v _)
        simp only [Client.admits, Frame.Body.request?, hm, Option.all_some, Bool.not_eq_true',
          Client.heeds, Bool.and_eq_false_iff, Bool.or_eq_false_iff] at admitted
        cases hh : w.client.handlers.request? method with
        | some h =>
          refine attends_handled hr hw params hid hh (admitted.resolve_left fun h => ?_)
          simp [hh] at h
        | none =>
          refine attends_unhandled params hid hh fun hreserved => admitted.resolve_left fun h => ?_
          simp [hreserved] at h
      | notification method params =>
        exact (attends_handleNotification hr hw method params).trans (attends_logIncoming ..)
      | response id result error =>
        exact (attends_handleResponse hw.pending id result error).trans
          (addsAsides_logTraffic ..).attends

/-! ## What becomes of a request -/

omit hr hw in
theorem AddsAsides.client_eq {w' : World} (h : AddsAsides w w') : w'.client = w.client := by
  obtain ⟨es, rfl, -⟩ := h
  rfl

omit hr hw in
theorem client_post (payload : Json) (w : World) : (w.post payload).2.client = w.client := by
  obtain ⟨es, -, he⟩ := post_adds payload w
  rw [he]

omit hr hw in
theorem client_logIncoming (n : Nat) (v : Json) (w : World) :
    (w.logIncoming n v).client = w.client := by
  unfold logIncoming
  split
  · rfl
  · exact (addsAsides_logTraffic ..).client_eq

omit hr hw in
/-- What the client keeps of a request is what handling it has kept. -/
theorem client_dispatch_request (run : Runner) {v id params : Json} {method : String}
    (hm : Message.classify v = .ok (.request id method params)) :
    (dispatch run w (.value v)).client = (handleRequest run w.client.contexts.length id method
      params (w.openContext method id true).2).client := by
  rw [dispatch_of_classify run hm]
  exact client_logIncoming ..

omit hr hw in
/-- A request whose handler has failed is answered. -/
theorem answered_handlerFailed {k : Context} (found : w.client.context? n = some k)
    (isRequest : k.isRequest = true) (method : String) (f : Fault) :
    ∃ k', (w.handlerFailed n method f).client.context? n = some k' ∧ Client.Lasts k k' ∧
      k'.answered = true := by
  have hclient : (w.clientLog .error ("Handler for " ++ method ++ " raised")).client = w.client :=
    (addsAsides_clientLog ..).client_eq
  have hfound : (w.clientLog .error ("Handler for " ++ method ++ " raised")).client.context? n =
      some k := by rw [hclient, found]
  unfold handlerFailed
  dsimp only
  rw [hfound, Option.any_some]
  cases ha : k.answered with
  | true => exact ⟨k, by rw [if_pos rfl, hfound], .refl k, ha⟩
  | false =>
    rw [if_neg Bool.false_ne_true, failAs, failWith_eq hfound isRequest ha, client_post]
    refine ⟨{ k with answered := true }, ?_, ⟨rfl, rfl, rfl, fun _ => rfl⟩, rfl⟩
    exact (Client.context?_conclude ..).trans (by rw [if_pos rfl, hfound, Option.map_some])

/-- When a request was dispatched it is answered if its handler has failed, and also if it has none
but its method is reserved; without a handler another one is not answered. -/
theorem answered_dispatch {v id params : Json} {method : String}
    (hm : Message.classify v = .ok (.request id method params))
    (admitted : w.client.admits (.value v) = true) :
    ∃ k, (dispatch run w (.value v)).client.context? w.client.contexts.length = some k ∧
      k.id = id ∧ k.isRequest = true ∧
      match w.client.handlers.request? method with
      | none => k.answered = isReserved method
      | some h => ∀ f, (callRequestHandler run w.client.contexts.length method params id h
          (w.handed method id)).1 = .error f → k.answered = true := by
  have hfound := context?_openContext method id true w
  have hid := Message.isId_of_classify hm
  rw [client_dispatch_request run hm]
  cases hh : w.client.handlers.request? method with
  | none =>
    have hhandlers : (w.openContext method id true).2.client.handlers.request? method = none := hh
    unfold handleRequest
    rw [hhandlers]
    dsimp only
    cases hreserved : isReserved method with
    | true =>
      rw [if_pos rfl, failAs, failWith_eq hfound rfl rfl, client_post]
      refine ⟨⟨method, id, true, true, false⟩, ?_, rfl, rfl, rfl⟩
      exact (Client.context?_conclude ..).trans (by rw [if_pos rfl, hfound, Option.map_some])
    | false =>
      rw [if_neg Bool.false_ne_true, (addsAsides_clientLog ..).client_eq]
      exact ⟨_, hfound, rfl, rfl, rfl⟩
  | some h =>
    have hunused : Client.contains (w.client.openIds 0) id = false := by
      simpa [Client.admits, Frame.Body.request?, hm, Client.heeds, hh] using admitted
    obtain ⟨hhand, hn⟩ := attends_handed hid (by rw [hh]; rfl) hunused
    obtain ⟨told, hcalled⟩ := attends_callRequestHandler hr (hhand.serving hw) hn method params id
      (h := h) fun kind script he =>
        allows_request? (k := Conduct.serving.free) (hhand.serving hw).handlers (he ▸ hh)
    have hhanded : (w.handed method id).client.context? w.client.contexts.length =
        some ⟨method, id, true, false, false⟩ := hfound
    obtain ⟨k, hk, hlasts⟩ := hcalled.steps.lasts hhanded
    rw [handleRequest_eq hh]
    dsimp only
    generalize callRequestHandler run w.client.contexts.length method params id h
      (w.handed method id) = r at hk ⊢
    obtain ⟨f | _, w₁⟩ := r
    · obtain ⟨k', hk', hlasts', hanswered⟩ :=
        answered_handlerFailed hk (hlasts.isRequest.trans rfl) method f
      exact ⟨k', hk', hlasts'.id.trans hlasts.id, hlasts'.isRequest.trans hlasts.isRequest,
        fun _ _ => hanswered⟩
    · exact ⟨k, hk, hlasts.id, hlasts.isRequest,
        fun f hf => by cases hf⟩

end Running

end World

end GhostText
