import GhostText.Proofs.Levels.Performing
import GhostText.Proofs.Run.Calls

/-!
# What operations bring about for certain

An operation adds to what has happened. Some of it is certain from the world in which it begins: the
message that is written where the transport takes it, the log record where one is kept, the signal
of a status that changes. Scripts of the host may add to that at some points, and take nothing away.
-/

namespace GhostText.World

/-- Where a run goes on from a world. -/
def outset (w : World) : Outset := ⟨w.startup.isSome, w.client.verbosity, w.events⟩

theorem abreast_self (w : World) : Abreast w.outset w.outset w w :=
  abreast_under w.client.verbosity w.client.verbosity w.events w.events w

/-- More has happened, and what was announced is among it, in the same order. -/
def Brings (announced : List Event) (w w' : World) : Prop :=
  ∃ es, w'.events = w.events ++ es ∧ announced.Sublist es

variable {w w' w'' : World} {announced more : List Event}

theorem Brings.trans (h : Brings announced w w') (h' : Brings more w' w'') :
    Brings (announced ++ more) w w'' := by
  obtain ⟨es, he, hs⟩ := h
  obtain ⟨es', he', hs'⟩ := h'
  exact ⟨es ++ es', by rw [he', he, List.append_assoc], hs.append hs'⟩

/-- What is said from a world on comes after all that has happened in it. -/
theorem Abreast.brings {o' : Outset} (h : Abreast w.outset o' w' w'') : Brings [] w w' := by
  obtain ⟨u, said, -, -, rfl, -⟩ := h
  exact ⟨noted w.client.verbosity said, rfl, List.nil_sublist _⟩

theorem Brings.before (h : Brings [] w w') (h' : Brings announced w' w'') :
    Brings announced w w'' :=
  h.trans h'

theorem Brings.behind (h : Brings announced w w') (h' : Brings [] w' w'') :
    Brings announced w w'' :=
  List.append_nil announced ▸ h.trans h'

theorem Brings.refl (w : World) : Brings [] w w := (abreast_self w).brings

/-- An operation that only updates what is not an event brings nothing. -/
theorem brings_of_events (h : w'.events = w.events) : Brings [] w w' :=
  ⟨[], by rw [h, List.append_nil], .refl _⟩

theorem brings_record (e : Event) (w : World) : Brings [e] w (w.record e) :=
  ⟨[e], rfl, .refl _⟩

theorem AddsOnly.brings {p : Event → Bool} (h : AddsOnly p w w') : Brings [] w w' := by
  obtain ⟨es, he, -⟩ := h
  exact ⟨es, congrArg events he, List.nil_sublist _⟩

/-! ## Records and messages -/

def notes (level : LogLevel) (text : String) (w : World) : List Event :=
  if w.client.logs level then [.logged level (w.client.logTag ++ " " ++ text)] else []

theorem brings_clientLog (level : LogLevel) (text : String) (w : World) :
    Brings (w.notes level text) w (w.clientLog level text) := by
  unfold notes clientLog
  split
  · exact brings_record _ w
  · exact .refl w

/-- A message that is written, if the transport takes it. -/
def writes (payload : Json) (w : World) : List Event :=
  if w.transport.accepting then [.sent payload] else []

theorem brings_transmit (payload : Json) (w : World) :
    Brings (w.writes payload) w (w.transmit payload).2 := by
  unfold writes transmit
  split
  · exact brings_record _ w
  · exact .refl w

theorem brings_post (payload : Json) (w : World) :
    Brings (w.writes payload) w (w.post payload).2 :=
  (brings_transmit payload w).behind (addsAsides_afterWrite ..).brings

theorem brings_notify (method : String) (params : Json) (w : World) :
    Brings (w.writes (Message.notification method params).toJson) w (w.notify method params) :=
  brings_post ..

/-- The request that is made under the next identifier. -/
def asks (method : String) (params : Json) (w : World) : List Event :=
  w.writes (Message.request (.int w.client.nextId) method params).toJson

/-- Events change nothing about how a request is made. -/
theorem asks_of_adds {es : List Event} (h : Adds w w' es) (method : String) (params : Json) :
    w'.asks method params = w.asks method params := by
  subst h
  rfl

/-- The answer to a request that has none yet. -/
def answering (n : Nat) (answer : Context → Message) (w : World) : List Event :=
  match w.client.context? n with
  | none => []
  | some c => if c.isRequest && !c.answered then w.writes (answer c).toJson else []

/-- The first answer to a request is written. -/
theorem answering_of_unanswered {n : Nat} {c : Context} (found : w.client.context? n = some c)
    (isRequest : c.isRequest = true) (unanswered : c.answered = false)
    (answer : Context → Message) :
    w.answering n answer = w.writes (answer c).toJson := by
  simp [answering, found, isRequest, unanswered]

/-- Neither a second answer to a request nor one to a notification is written. -/
theorem answering_of_refused {n : Nat} {c : Context} (found : w.client.context? n = some c)
    (refused : ¬ (c.isRequest = true ∧ c.answered = false)) (answer : Context → Message) :
    w.answering n answer = [] := by
  simp only [answering, found]
  exact if_neg (by simpa using refused)

/-- An answer that comes too late, or that nobody waits for, brings nothing. -/
theorem brings_succeed (n : Nat) (value : Json) (w : World) :
    Brings (w.answering n fun c => w.answerOf c value) w (w.succeed n value) := by
  cases found : w.client.context? n with
  | none =>
    rw [answering, succeed, found]
    exact .refl w
  | some c =>
    by_cases h : c.isRequest = true ∧ c.answered = false
    · rw [succeed_eq found h.1 h.2, answering_of_unanswered found h.1 h.2]
      exact brings_post ..
    · rw [answering_of_refused found h]
      exact (addsAsides_succeed found h value).brings

theorem brings_failAs (n : Nat) (code : ErrorCode) (message : String) (w : World) :
    Brings (w.answering n fun c => .response c.id .null (some (.of code message))) w
      (w.failAs n code message) := by
  unfold failAs
  cases found : w.client.context? n with
  | none =>
    rw [answering, failWith, found]
    exact .refl w
  | some c =>
    by_cases h : c.isRequest = true ∧ c.answered = false
    · rw [failWith_eq found h.1 h.2, answering_of_unanswered found h.1 h.2]
      exact brings_post ..
    · rw [answering_of_refused found h]
      exact (addsAsides_failWith found h _).brings

/-- The message about the connection: a log record where the start is from the command line. -/
def statusNotes (text : String) (w : World) : List Event :=
  [if w.startup.isSome then .logged .info text else .signalled (.statusMessage text)]

theorem brings_statusMessage (text : String) (w : World) :
    Brings (w.statusNotes text) w (w.statusMessage text) := by
  unfold statusNotes statusMessage
  split <;> exact brings_record _ w

/-- The server is told that the run ends, and the transport stops. -/
def farewells (w : World) : List Event :=
  w.writes (Message.notification "exit" .null).toJson ++ [.transportStopped]

theorem brings_finishStartup (code : Nat) (w : World) :
    Brings w.farewells w (w.finishStartup code) := by
  let ended := w.updateStartup fun s => { s with exitCode := some code }
  have hended : Brings [] w ended := brings_of_events rfl
  have hnotify := brings_notify "exit" .null ended
  have hclose := ((abreast_self _).closeClient
    (w := (ended.notify "exit" .null).record .transportStopped)).brings
  exact (hended.before (hnotify.trans (brings_record .transportStopped _))).behind hclose

/-! ## Where scripts of the host are run -/

variable {run : Runner} (hr : ∀ o o', run.Agrees o o')

include hr

/-- What a script does is not certain from where it begins, but it takes nothing back. -/
theorem brings_run (i : Invocation) (w : World) : Brings [] w (run i w).2 :=
  (hr w.outset w.outset i w w (abreast_self w)).abreast.brings

theorem brings_callHost (kind : CallbackKind) (c : Callback Action) (outcome : Outcome)
    (w : World) : Brings [.calledBack c.label kind outcome] w (callHost run kind c outcome w).2 :=
  (brings_record _ w).behind (brings_run hr ..)

/-- A request is written before it may be answered. -/
theorem brings_request (kind : CallKind) (method params : Json)
    (onResult onError : List Continuation) (treatment : Treatment) (w : World) :
    Brings (w.asks method.textOrEmpty params) w
      (request run kind method params onResult onError treatment w).2 := by
  let made := w.updateClient fun c =>
    c.addCall (.start w.client.nextId method.textOrEmpty kind onResult onError) treatment
  let payload := (Message.request (.int w.client.nextId) method.textOrEmpty params).toJson
  have hsent : Brings (w.writes payload) w (send run payload made).2 := by
    have hmade : Brings [] w made := brings_of_events rfl
    have hwritten : Brings (w.writes payload) made (made.transmit payload).2 :=
      brings_transmit payload made
    obtain ⟨w₁, hasides, rfl | ⟨answer, -, rfl | rfl⟩⟩ := send_cases run payload made
    · exact (hmade.before hwritten).behind hasides.brings
    · exact ((hmade.before hwritten).behind (brings_of_events rfl)).behind hasides.brings
    · have htold : Brings [] (made.transmit payload).2
          ((made.transmit payload).2.tell (run (.deliver (Frame.encode answer)))) :=
        (brings_run hr ..).behind (addsAsides_tell ..).brings
      exact ((hmade.before hwritten).behind htold).behind hasides.brings
  unfold request
  dsimp only [made, payload] at hsent ⊢
  generalize send run _ _ = r at hsent ⊢
  obtain ⟨_ | _, w₁⟩ := r
  · have hdrop : Brings [] w₁ (w₁.updateClient fun c => c.dropPending w.client.nextId) :=
      brings_of_events rfl
    exact hsent.behind (hdrop.behind ((abreast_self _).rejectCall (hr _ _) ..).brings)
  · exact hsent

/-! ## The status -/

omit hr in
def Notice.tellings (notice : Notice) : Subscriber → List Event
  | .host label => [.told label notice]
  | .terminal =>
    match notice with
    | .statusChanged old new => [.printed (statusLine old new)]
    | .serverStarted _ => []

variable (run) in
omit hr in
/-- What some subscribers are told, each if it is still one when its turn comes. -/
def tellings (notice : Notice) : List Subscription → World → List Event
  | [], _ => []
  | s :: ss, w =>
    (if w.assistant.isSubscribed s.number then Notice.tellings notice s.subscriber else []) ++
      tellings notice ss (tellSubscription run notice w s)

/-- A subscriber who fails has still been told. -/
theorem brings_tellSubscription (notice : Notice) (s : Subscription) (w : World) :
    Brings (if w.assistant.isSubscribed s.number then Notice.tellings notice s.subscriber else []) w
      (tellSubscription run notice w s) := by
  unfold tellSubscription
  split
  · refine Brings.behind ?_ (addsAsides_tell ..).brings
    cases s.subscriber with
    | host label => exact (brings_record _ w).behind (brings_run hr ..)
    | terminal =>
      cases notice with
      | statusChanged old new => exact brings_record _ w
      | serverStarted result => exact .refl w
  · exact .refl w

theorem brings_tellings (notice : Notice) (ss : List Subscription) (w : World) :
    Brings (tellings run notice ss w) w (ss.foldl (tellSubscription run notice) w) := by
  induction ss generalizing w with
  | nil => exact .refl w
  | cons s ss ih => exact (brings_tellSubscription hr notice s w).trans (ih _)

variable (run) in
omit hr in
/-- What the subscribers to a topic are told. -/
def subscribersTold (notice : Notice) (w : World) : List Event :=
  tellings run notice (w.assistant.subscriptions.filter fun s => s.topic = notice.topic) w

variable (run) in
omit hr in
/-- A status that changes is signalled, and then its subscribers are told. -/
def statusTold (status : Status) (w : World) : List Event :=
  if status = w.assistant.status then []
  else
    .signalled (.statusChanged w.assistant.status status) ::
      subscribersTold run (.statusChanged w.assistant.status status)
        ((w.updateAssistant fun a => { a with status := status }).signal
          (.statusChanged w.assistant.status status))

/-- A change of the status is signalled before its subscribers are told; a status that stays is
not. -/
theorem brings_changeStatus (status : Status) (w : World) :
    Brings (statusTold run status w) w (changeStatus run status w) := by
  unfold statusTold changeStatus
  dsimp only
  split
  · exact .refl w
  · exact Brings.before (brings_of_events rfl)
      ((brings_record (.signalled (.statusChanged w.assistant.status status)) _).trans
        (brings_tellings hr ..))

/-! ## Fetches -/

variable (run) in
omit hr in
def idleTold (w : World) : List Event :=
  if w.fetches.allCancelled then statusTold run (.ofActivity false) w else []

theorem brings_reportIfIdle (w : World) : Brings (idleTold run w) w (reportIfIdle run w) := by
  unfold idleTold reportIfIdle
  split
  · exact brings_changeStatus hr _ w
  · exact .refl w

variable (run) in
omit hr in
def failureTold (task : Nat) (f : Fault) (w : World) : List Event :=
  .logged .debug ("Completion task " ++ toString task ++ " failed: " ++ f.message) ::
    idleTold run ((w.removeFetch task).2.log .debug
      ("Completion task " ++ toString task ++ " failed: " ++ f.message))

/-- A fetch that has failed is logged, and the status is told if it was the last one wanted. -/
theorem brings_fetchFailed (task : Nat) (f : Fault) (w : World) :
    Brings (failureTold run task f w) w (fetchFailed run task f w) :=
  Brings.before (brings_of_events rfl) ((brings_record _ _).trans (brings_reportIfIdle hr _))

omit hr in
def turnsDown (uuids : List String) (w : World) : List Event :=
  w.writes (Message.notification "notifyRejected" (.obj [("uuids", .arr (uuids.map .str))])).toJson

omit hr in
theorem brings_notifyRejected (uuids : List String) (w : World) :
    Brings (w.turnsDown uuids) w (w.notifyRejected uuids) :=
  brings_notify ..

omit hr in
/-- What becomes of a completion: its callback is called, or the controller begins a session for it
or turns it down. -/
def completionTold (completion : Completion) (w : World) : CompletionSink → List Event
  | .nobody => []
  | .host c => [.calledBack c.label .completion (.completion completion)]
  | .controller =>
    match w.controller with
    | none => []
    | some c =>
      if c.config.disableCompletions || c.pending.isSome then w.turnsDown [completion.uuid]
      else if (w.rejectCurrent "newer-completion").2.controller.isSome then
        [.signalled (.sessionStarted completion.uuid)]
      else []

/-- A completion comes to whoever asked for it, or is turned down. -/
theorem brings_deliverCompletion (completion : Completion) (sink : CompletionSink) (w : World) :
    Brings (w.completionTold completion sink) w (deliverCompletion run completion sink w).2 := by
  cases sink with
  | nobody => exact .refl w
  | host c => exact brings_callHost hr ..
  | controller =>
    change Brings _ w (w.takeCompletion completion)
    unfold completionTold takeCompletion
    cases w.controller with
    | none => exact .refl w
    | some c =>
      dsimp only
      split
      · exact brings_notifyRejected ..
      · have hgrows := ((abreast_self w).rejectCurrent "newer-completion").abreast.brings
        unfold present
        dsimp only
        generalize (w.rejectCurrent "newer-completion").2 = w₁ at hgrows ⊢
        cases w₁.controller with
        | none => exact hgrows
        | some c =>
          refine hgrows.before (Brings.before ?_ (brings_record _ _))
          exact Brings.before (brings_of_events rfl) ((abreast_self _).startSession ..).brings

variable (run) in
omit hr in
/-- What the answer to a fetch brings about: the first completion is for whoever asked, the others
are turned down, and so is all that was given up. -/
def answerTold (task : Nat) (result : CompletionResult) (sink : CompletionSink) (w : World) :
    List Event :=
  let (cancelled, w) := w.removeFetch task
  let uuids := result.completions.map Completion.uuid
  let w₁ := reportIfIdle run w
  idleTold run w ++
    if cancelled then (if uuids.isEmpty then [] else w₁.turnsDown uuids)
    else
      match result.cancellationReason, result.completions with
      | none, first :: rest =>
        let uuids := rest.map Completion.uuid
        (if rest.isEmpty then [] else w₁.turnsDown uuids) ++
          (if rest.isEmpty then w₁ else w₁.notifyRejected uuids).completionTold first sink
      | _, _ => []

/-- The status comes first, then what is turned down, then what is delivered. -/
theorem brings_fetchAnswered (task : Nat) (result : CompletionResult) (sink : CompletionSink)
    (w : World) :
    Brings (answerTold run task result sink w) w (fetchAnswered run task result sink w).2 := by
  unfold answerTold fetchAnswered
  have hremoved : Brings [] w (w.removeFetch task).2 := brings_of_events rfl
  generalize w.removeFetch task = r at hremoved ⊢
  obtain ⟨cancelled, w₁⟩ := r
  have hidle := hremoved.before (brings_reportIfIdle hr w₁)
  dsimp only
  generalize reportIfIdle run w₁ = w₂ at hidle ⊢
  refine hidle.trans ?_
  split
  · dsimp only
    split
    · exact .refl w₂
    · exact brings_notifyRejected ..
  · cases result.cancellationReason with
    | some reason => exact .refl w₂
    | none =>
      cases result.completions with
      | nil => exact .refl w₂
      | cons first rest =>
        refine Brings.trans ?_ (brings_deliverCompletion hr first sink _)
        split
        · exact .refl w₂
        · exact brings_notifyRejected ..

end GhostText.World
