import GhostText.Proofs.Client.Bringing

/-!
# What a message brings about for certain

A message reaches the one it is for: its handler is called, be it the host's or the protocol's own,
or all who wait for the call it answers are told, be they callbacks of the host, the next stage of a
handshake, the next step of a start, or the end of a fetch. What any of them does, and that it
fails, keeps none of the others from being reached, nor the messages behind from being dispatched.

What one of them brings about is said in the world in which it is reached, with all that the ones
before it have done. That a request of the peer is marked as cancelled is no event: it shows in how
the request is answered.
-/

namespace GhostText.World

variable {w w' : World} {run : Runner} (hr : ∀ o o', run.Agrees o o')

include hr

/-! ## Those who wait for a call -/

variable (run) in
omit hr in
def startTold (result : Json) (w : World) : List Event :=
  let result := if result.isObject then result else .obj []
  let capabilities := result.fieldD "capabilities"
  let capabilities := if capabilities.isObject then capabilities else .obj []
  let w := w.updateClient fun c => { c with capabilities := capabilities, isInitialized := true }
  if w.hasAssistant then
    .signalled (.assistantStarted result) ::
      subscribersTold run (.serverStarted result) (w.signal (.assistantStarted result))
  else [.signalled (.serverStarted result)]

/-- An assistant signals its start itself and tells its subscribers; a bare client only signals
it. -/
theorem brings_serverStarted (result : Json) (w : World) :
    Brings (startTold run result w) w (serverStarted run result w) := by
  have htold : ∀ (result : Json) (w : World), Brings
      (if w.hasAssistant then
        .signalled (.assistantStarted result) ::
          subscribersTold run (.serverStarted result) (w.signal (.assistantStarted result))
      else [.signalled (.serverStarted result)]) w
      (if w.hasAssistant then
        tellSubscribers run (.serverStarted result) (w.signal (.assistantStarted result))
      else w.signal (.serverStarted result)) := fun result w => by
    cases w.hasAssistant with
    | true =>
      exact (brings_record (.signalled (.assistantStarted result)) w).trans (brings_tellings hr ..)
    | false => exact brings_record (.signalled (.serverStarted result)) w
  exact (brings_of_events rfl).before (htold _ _)

omit hr in
/-- The server is told that it has started, and who it is talking to if that can be read. -/
def greetingTold (h : Handshake) (w : World) : List Event :=
  w.writes (Message.notification "initialized" (.obj [])).toJson ++
    match infoOf (h.editorInfo.orElse defaultInfo), infoOf (h.pluginInfo.orElse defaultInfo) with
    | .ok editor, .ok plugin =>
      w.asks "setEditorInfo" (.obj [("editorInfo", editor), ("editorPluginInfo", plugin)])
    | _, _ => []

/-- The greeting goes on with who is talking, unless that cannot be read. -/
theorem brings_afterStart (h : Handshake) (w : World) :
    Brings (w.greetingTold h) w (afterStart run h w).2 := by
  obtain ⟨es, hadds⟩ := notify_adds "initialized" (.obj []) w
  refine (brings_notify "initialized" (.obj []) w).trans ?_
  unfold afterStart setEditorInfo
  dsimp only
  cases infoOf (h.editorInfo.orElse defaultInfo) with
  | error f => exact .refl _
  | ok editor =>
    cases infoOf (h.pluginInfo.orElse defaultInfo) with
    | error f => exact .refl _
    | ok plugin =>
      dsimp only
      rw [← asks_of_adds hadds]
      exact brings_request hr ..

omit hr in
/-- What a step of a start from the command line prints, and what the server is asked or told. -/
def stepTold (answer : Json) (w : World) : StartupStep → List Event
  | .ready =>
    .printed ("Copilot server version: " ++ answer.shown) ::
      w.asks "checkStatus" (.obj [("localChecksOnly", .bool false)])
  | .account =>
    .printed (Text.trimEnd ("Account status: " ++ answer.shownMember "status" "unknown" ++ " " ++
        answer.shownMember "user" "")) ::
      if w.startup.any Startup.signIn && !(answer.fieldD "status").same (.str "OK") then
        w.asks "signInInitiate" noParams
      else w.farewells
  | .signIn =>
    if (answer.fieldD "status").same (.str "AlreadySignedIn") then
      .printed ("Already signed in as " ++ answer.shownMember "user" "") :: w.farewells
    else
      .printed ("Open " ++ answer.shownMember "verificationUri" "" ++ " and enter the code " ++
          answer.shownMember "userCode" "") ::
        w.asks "signInConfirm" (.obj [("userCode", .str (answer.fieldD "userCode").textOrEmpty)])
  | .signedIn => .printed ("Signed in: " ++ answer.shown) :: w.farewells
  | .failed => []

theorem brings_continueStartup (answer : Json) (step : StartupStep) (w : World) :
    Brings (w.stepTold answer step) w (continueStartup run answer step w) := by
  have hprint : ∀ line (w : World), Brings [.printed line] w (w.print line) := fun line w =>
    brings_record _ w
  cases step with
  | ready =>
    exact Brings.before (brings_of_events rfl) ((hprint _ _).trans (brings_request hr ..))
  | account =>
    have hgoesOn : ∀ (signsIn : Bool) (w : World), Brings
        (if signsIn then w.asks "signInInitiate" noParams else w.farewells) w
        (if signsIn then (signIn run [.reaction (.startup .signIn)] failStartup w).2
          else w.finishStartup 0) := fun signsIn w => by
      cases signsIn with
      | true => exact brings_request hr ..
      | false => exact brings_finishStartup ..
    exact (hprint _ w).trans (hgoesOn _ _)
  | signIn =>
    unfold stepTold continueStartup
    dsimp only
    split
    · exact (hprint _ w).trans (brings_finishStartup ..)
    · exact (hprint _ w).trans (brings_request hr ..)
  | signedIn => exact (hprint _ w).trans (brings_finishStartup ..)
  | failed => exact .refl w

variable (run) in
omit hr in
/-- What a result brings about with one who waits for it. -/
def replyTold (r : Reply) (w : World) : Continuation → List Event
  | .reaction (.host kind c) => [.calledBack c.label kind (.reply r)]
  | .reaction (.startup step) => w.stepTold r.json step
  | .serverStarted => startTold run r.json w
  | .afterStart h => w.greetingTold h
  | .afterEditorInfo _ => w.asks "getVersion" noParams
  | .fetched task sink =>
    match r with
    | .completions result => answerTold run task result sink w
    | .value _ => []
  | _ => []

theorem brings_continueWithReply (r : Reply) (k : Continuation) (w : World) :
    Brings (replyTold run r w k) w (continueWithReply run r k w).2 := by
  cases k with
  | reaction reaction =>
    cases reaction with
    | host kind c => exact brings_callHost hr kind c _ w
    | startup step => exact brings_continueStartup hr r.json step w
  | serverStarted => exact brings_serverStarted hr r.json w
  | afterStart h => exact brings_afterStart hr h w
  | afterEditorInfo h => exact brings_request hr ..
  | fetched task sink =>
    cases r with
    | completions result => exact brings_fetchAnswered hr task result sink w
    | value v => exact .refl w
  | _ => exact .refl w

variable (run) in
omit hr in
def errorTold (f : Fault) (w : World) : Continuation → List Event
  | .reaction (.host kind c) => [.calledBack c.label kind (.fault f)]
  | .reaction (.startup _) =>
    .logged .error ("Copilot request failed: " ++ f.message) :: w.farewells
  | .serverNotStarted => w.statusNotes ("LSP initialize failed: " ++ f.message)
  | .fetchFailed task => failureTold run task f w
  | _ => []

/-- Whoever waits for an error is told of it, or ends with it. -/
theorem brings_continueWithError (f : Fault) (k : Continuation) (w : World) :
    Brings (errorTold run f w k) w (continueWithError run f k w).2 := by
  cases k with
  | reaction reaction =>
    cases reaction with
    | host kind c => exact brings_callHost hr kind c _ w
    | startup step => exact (brings_record _ w).trans (brings_finishStartup ..)
  | serverNotStarted => exact Brings.before (brings_of_events rfl) (brings_statusMessage ..)
  | fetchFailed task => exact brings_fetchFailed hr task f w
  | _ => exact .refl w

variable (run) in
omit hr in
def verdictTold : Verdict → World → Continuation → List Event
  | .ok r => replyTold run r
  | .error f => errorTold run f

variable (run) in
omit hr in
/-- What those who wait for a call are told, one after another. -/
def receipts (v : Verdict) : List Continuation → World → List Event
  | [], _ => []
  | k :: ks, w => verdictTold run v w k ++ receipts v ks (w.callBack (v.continueWith run k))

/-- One that fails keeps none behind it from being told. -/
theorem brings_receipts (v : Verdict) (ks : List Continuation) (w : World) :
    Brings (receipts run v ks w) w (ks.foldl (fun w k => w.callBack (v.continueWith run k)) w) := by
  induction ks generalizing w with
  | nil => exact .refl w
  | cons k ks ih =>
    have htold : Brings (verdictTold run v w k) w (v.continueWith run k w).2 := by
      cases v with
      | ok r => exact brings_continueWithReply hr r k w
      | error f => exact brings_continueWithError hr f k w
    exact (htold.behind (addsAsides_callBack ..).brings).trans (ih _)

variable (run) in
omit hr in
/-- What those who wait for a call are told when it settles. -/
def settlement (id : Nat) (v : Verdict) (w : World) : List Event :=
  match w.client.call? id with
  | none => []
  | some c =>
    if c.status ≠ .pending then []
    else receipts run v (v.waiting c) (w.updateClient fun k => k.updateCall id (Call.settle v))

/-- All who wait for a call are told when it settles, and nobody when it has settled before. -/
theorem brings_settleBy (id : Nat) (v : Verdict) (w : World) :
    Brings (settlement run id v w) w (settleBy run id v w) := by
  unfold settlement settleBy settleCall
  cases w.client.call? id with
  | none => exact .refl w
  | some c =>
    dsimp only
    split
    · exact .refl w
    · exact Brings.before (brings_of_events rfl) (brings_receipts hr ..)

/-! ## Responses -/

variable (run) in
omit hr in
/-- A result that cannot be interpreted is an error for those who wait for it. -/
def misreading (p : PendingCall) (f : Fault) (w : World) : List Event :=
  settlement run p.id (.error f) (w.clientLog .error
    ("Could not interpret the result of " ++ p.method ++ ": " ++ f.message))

theorem brings_rejectResult (p : PendingCall) (f : Fault) (w : World) :
    Brings (misreading run p f w) w (rejectResult run p f w) :=
  (addsAsides_clientLog ..).brings.before (brings_settleBy hr p.id (.error f) _)

variable (run) in
omit hr in
/-- What a result brings about: it is interpreted, and those who wait for it are told what came of
that. For the status of an account its subscribers come first, and they may have settled the call by
then. -/
def resultHeralds (p : PendingCall) (result : Json) (w : World) : List Event :=
  match p.treatment with
  | .asIs => settlement run p.id (.ok (.value result)) w
  | .account =>
    if result.isObject then
      statusTold run (.ofAccount (result.fieldD "status")) w ++
        settlement run p.id (.ok (.value result)) (reportAccount run (result.fieldD "status") w)
    else settlement run p.id (.ok (.value result)) w
  | .completions =>
    match CompletionResult.ofJson result with
    | .ok r => settlement run p.id (.ok (.completions r)) w
    | .error f => misreading run p f w
  | .host (.wrap key) => .transformed result ::
      settlement run p.id (.ok (.value (.obj [(key, result)]))) (w.record (.transformed result))
  | .host (.refuse f) => .transformed result :: misreading run p f (w.record (.transformed result))

theorem brings_settleResult (p : PendingCall) (result : Json) (w : World) :
    Brings (resultHeralds run p result w) w (settleResult run p result w) := by
  unfold resultHeralds settleResult
  cases p.treatment with
  | asIs => exact brings_settleBy hr ..
  | account =>
    dsimp only
    split
    · exact (brings_changeStatus hr _ w).trans (brings_settleBy hr ..)
    · exact brings_settleBy hr ..
  | completions =>
    dsimp only
    cases CompletionResult.ofJson result with
    | ok r => exact brings_settleBy hr ..
    | error f => exact brings_rejectResult hr ..
  | host t =>
    cases t with
    | wrap key => exact (brings_record _ w).trans (brings_settleBy hr ..)
    | refuse f => exact (brings_record _ w).trans (brings_rejectResult hr ..)

variable (run) in
omit hr in
def responseHeralds (id result : Json) (error : Option ResponseError) (w : World) : List Event :=
  match w.client.pendingFor? id with
  | none => []
  | some p =>
    let w := w.updateClient fun c => c.dropPending p.id
    match error with
    | some e => settlement run p.id (.error (.response e)) w
    | none => resultHeralds run p result w

/-- A response reaches those who wait for the call it answers. -/
theorem brings_handleResponse (id result : Json) (error : Option ResponseError) (w : World) :
    Brings (responseHeralds run id result error w) w (handleResponse run id result error w) := by
  unfold responseHeralds handleResponse
  cases hid : id.isNull with
  | true =>
    have hnone : w.client.pendingFor? id = none := by
      cases id <;> simp_all [Json.isNull, Client.pendingFor?]
    rw [hnone]
    exact (addsAsides_clientLog ..).brings
  | false =>
    simp only [Bool.false_eq_true, if_false]
    cases w.client.pendingFor? id with
    | none => exact (addsAsides_clientLog ..).brings
    | some p =>
      have hdrop : Brings [] w (w.updateClient fun c => c.dropPending p.id) := brings_of_events rfl
      cases error with
      | some e => exact hdrop.before (brings_settleBy hr ..)
      | none => exact hdrop.before (brings_settleResult hr ..)

/-! ## Requests of the peer -/

omit hr in
/-- The host's handler is called. The protocol's own one changes what is registered and answers, if
it can read the request. -/
def handlerHeralds (n : Nat) (method : String) (params id : Json) (w : World) :
    RequestHandler → List Event
  | .user _ none => []
  | .user _ (some _) => [.handled method params id true]
  | .reserved r =>
    let change := match r with
      | .register => Registrations.register params
      | .unregister => Registrations.unregister params
    match change w.client.registrations with
    | .error _ => []
    | .ok _ => w.answering n fun c => w.answerOf c .null

omit hr in
theorem brings_changeRegistrations (n : Nat) (change : Registrations → Except Fault Registrations)
    (w : World) : Brings (match change w.client.registrations with
      | .error _ => []
      | .ok _ => w.answering n fun c => w.answerOf c .null) w
      (changeRegistrations n change w).2 := by
  unfold changeRegistrations
  cases change w.client.registrations with
  | error f => exact .refl w
  | ok rs => exact Brings.before (brings_of_events rfl) (brings_succeed n .null _)

theorem brings_callRequestHandler (n : Nat) (method : String) (params id : Json)
    (h : RequestHandler) (w : World) :
    Brings (w.handlerHeralds n method params id h) w
      (callRequestHandler run n method params id h w).2 := by
  cases h with
  | user kind script =>
    cases script with
    | none => exact .refl w
    | some script => exact (brings_record _ w).behind (brings_run hr ..)
  | reserved r => cases r <;> exact brings_changeRegistrations n _ w

omit hr in
def failureHeralds (n : Nat) (method : String) (f : Fault) (w : World) : List Event :=
  (w.clientLog .error ("Handler for " ++ method ++ " raised")).answering n fun c =>
    .response c.id .null (some (.of .internalError f.report))

omit hr in
/-- Whoever asked is told that the handler failed, unless the handler had answered before it did. -/
theorem brings_handlerFailed (n : Nat) (method : String) (f : Fault) (w : World) :
    Brings (w.failureHeralds n method f) w (w.handlerFailed n method f) := by
  have hlog := (addsAsides_clientLog .error ("Handler for " ++ method ++ " raised") w).brings
  unfold failureHeralds handlerFailed
  dsimp only
  generalize w.clientLog .error ("Handler for " ++ method ++ " raised") = w₁ at hlog ⊢
  split
  · next hanswered =>
    obtain ⟨c, found, answered⟩ := (Option.any_eq_true ..).1 hanswered
    rw [answering_of_refused found (by simp [answered])]
    exact hlog
  · exact hlog.before (brings_failAs ..)

variable (run) in
omit hr in
/-- A request is answered for where nobody handles it, if it has to be; else its handler is called,
and answered for if it fails. -/
def requestHeralds (n : Nat) (id : Json) (method : String) (params : Json) (w : World) :
    List Event :=
  match w.client.handlers.request? method with
  | none =>
    if isReserved method then
      w.answering n fun c =>
        .response c.id .null (some (.of .methodNotFound ("Unhandled method " ++ method)))
    else []
  | some h =>
    let w := w.updateClient fun c => c.openRequest id
    w.handlerHeralds n method params id h ++
      match callRequestHandler run n method params id h w with
      | (.ok _, _) => []
      | (.error f, w) => w.failureHeralds n method f

/-- A request reaches its handler, and is answered for where that fails or is missing. -/
theorem brings_handleRequest (n : Nat) (id : Json) (method : String) (params : Json) (w : World) :
    Brings (requestHeralds run n id method params w) w
      (handleRequest run n id method params w) := by
  unfold requestHeralds handleRequest
  cases w.client.handlers.request? method with
  | none =>
    dsimp only
    split
    · exact brings_failAs ..
    · exact (addsAsides_clientLog ..).brings
  | some h =>
    dsimp only
    have hcall := brings_callRequestHandler hr n method params id h
      (w.updateClient fun c => c.openRequest id)
    refine Brings.before (brings_of_events rfl) ?_
    generalize callRequestHandler run n method params id h _ = r at hcall ⊢
    obtain ⟨f | _, w₁⟩ := r
    · exact hcall.trans (brings_handlerFailed n method f w₁)
    · exact hcall.trans (.refl w₁)

/-! ## Notifications of the peer -/

omit hr in
def reservedHeralds (n : Nat) (params : Json) (w : World) : ReservedNotification → List Event
  | .cancelRequest => []
  | .progress => [.signalled (.progressReceived (params.fieldD "token") (params.fieldD "value"))]
  | .logTrace =>
    let message := (params.fieldD "message").textOrEmpty
    let verbose := (params.fieldD "verbose").textOrEmpty
    w.notes .debug (if verbose.isEmpty then message else message ++ "\n" ++ verbose)
  | .logMessage =>
    match LogLevel.ofMessageType (params.fieldD "type") with
    | .error _ => []
    | .ok level => (w.suppressLogging n).notes level (params.fieldD "message").textOrEmpty

omit hr in
theorem brings_takeReserved (n : Nat) (params : Json) (r : ReservedNotification) (w : World) :
    Brings (w.reservedHeralds n params r) w (takeReserved n params r w).2 := by
  cases r with
  | cancelRequest =>
    unfold takeReserved
    dsimp only
    split
    · exact .refl w
    · cases w.client.markCancelled (params.fieldD "id") with
      | error f => exact .refl w
      | ok c => exact brings_of_events rfl
  | progress => exact brings_record _ w
  | logTrace => exact brings_clientLog ..
  | logMessage =>
    unfold takeReserved reservedHeralds
    dsimp only
    cases LogLevel.ofMessageType (params.fieldD "type") with
    | error f => exact brings_of_events rfl
    | ok level => exact Brings.before (brings_of_events rfl) (brings_clientLog ..)

variable (run) in
omit hr in
def statusHeralds (params : Json) (w : World) : List Event :=
  match Status.ofName? (params.fieldD "status").textOrEmpty with
  | some s => statusTold run s w
  | none => w.notes .error ("Unknown Copilot status " ++ (params.fieldD "status").quotedText)

variable (run) in
omit hr in
def receiverHeralds (n : Nat) (method : String) (params : Json) (w : World) :
    NotificationHandler → List Event
  | .reserved r => w.reservedHeralds n params r
  | .user (.script _) => [.handled method params .null false]
  | .user .serverLog =>
    let message := params.shownMember "message" ""
    let extra := params.fieldD "extra"
    (w.suppressLogging n).notes .debug
      (if extra.truthy then message ++ " " ++ extra.shown else message)
  | .user .serverStatus => statusHeralds run params w
  | .user _ => []

theorem brings_callNotificationHandler (n : Nat) (method : String) (params : Json)
    (h : NotificationHandler) (w : World) :
    Brings (receiverHeralds run n method params w h) w
      (callNotificationHandler run n method params h w).2 := by
  cases h with
  | reserved r => exact brings_takeReserved n params r w
  | user e =>
    cases e with
    | script script => exact (brings_record _ w).behind (brings_run hr ..)
    | serverLog => exact Brings.before (brings_of_events rfl) (brings_clientLog ..)
    | serverStatus =>
      change Brings (statusHeralds run params w) w (takeServerStatus run params w)
      unfold statusHeralds takeServerStatus
      dsimp only
      cases Status.ofName? (params.fieldD "status").textOrEmpty with
      | none => exact brings_clientLog ..
      | some s => exact brings_changeStatus hr s w
    | _ => exact .refl w

variable (run) in
omit hr in
/-- The handler of a notification is called, if there is one, and then it is signalled that the
notification has come. -/
def notificationHeralds (n : Nat) (method : String) (params : Json) (w : World) : List Event :=
  (match w.client.handlers.notification? method with
    | none => []
    | some h => receiverHeralds run n method params w h) ++
      [.signalled (.notificationReceived method params)]

/-- A notification reaches its handler, and whether or not that fails it is signalled. -/
theorem brings_handleNotification (n : Nat) (method : String) (params : Json) (w : World) :
    Brings (notificationHeralds run n method params w) w
      (handleNotification run n method params w) := by
  unfold notificationHeralds handleNotification
  refine Brings.trans ?_ (brings_record _ _)
  cases w.client.handlers.notification? method with
  | none => exact .refl w
  | some h =>
    have hcall := brings_callNotificationHandler hr n method params h w
    dsimp only
    generalize callNotificationHandler run n method params h w = r at hcall ⊢
    obtain ⟨_ | _, w₁⟩ := r
    · exact hcall.behind (addsAsides_clientLog ..).brings
    · exact hcall

/-! ## Messages -/

variable (run) in
omit hr in
/-- What a message brings about for certain. -/
def heralds (w : World) : Frame.Body → List Event
  | .malformed _ _ => []
  | .value v =>
    match Message.classify v with
    | .error _ => []
    | .ok (.response id result error) => responseHeralds run id result error w
    | .ok (.request id method params) =>
      let (n, w) := w.openContext method id true
      requestHeralds run n id method params w
    | .ok (.notification method params) =>
      let (n, w) := w.openContext method .null false
      notificationHeralds run n method params w

/-- A message reaches the one it is for. -/
theorem brings_dispatch (b : Frame.Body) (w : World) :
    Brings (heralds run w b) w (dispatch run w b) := by
  have hlog : ∀ n v (w : World), Brings [] w (w.logIncoming n v) := fun n v w =>
    ((abreast_self w).logIncoming ..).brings
  cases b with
  | malformed raw e => exact (addsAsides_clientLog ..).brings
  | value v =>
    unfold heralds dispatch
    dsimp only
    cases Message.classify v with
    | error violation => exact (addsAsides_clientLog ..).brings
    | ok m =>
      cases m with
      | response id result error =>
        exact (brings_handleResponse hr id result error w).behind (addsAsides_logTraffic ..).brings
      | request id method params =>
        exact (Brings.before (brings_of_events rfl)
          (brings_handleRequest hr _ id method params _)).behind (hlog ..)
      | notification method params =>
        exact (Brings.before (brings_of_events rfl)
          (brings_handleNotification hr _ method params _)).behind (hlog ..)

variable (run) in
omit hr in
/-- What some messages bring about, each of them in the world that the ones before it have left. -/
def heraldsOf : World → List Frame.Body → List Event
  | _, [] => []
  | w, b :: bodies => heralds run w b ++ heraldsOf (dispatch run w b) bodies

/-- Messages that come together reach the ones they are for, one after another. -/
theorem brings_dispatches (bodies : List Frame.Body) (w : World) :
    Brings (heraldsOf run w bodies) w (bodies.foldl (dispatch run) w) := by
  induction bodies generalizing w with
  | nil => exact .refl w
  | cons b bodies ih => exact (brings_dispatch hr b w).trans (ih _)

end GhostText.World
