import GhostText.Host.Perform
import GhostText.Proofs.Levels.Editing

/-!
# Runs side by side

What the answers and the messages of the peer bring about, and so what any action brings about, is
the same in worlds that are abreast, to any depth.
-/

namespace GhostText.World

variable {run : Runner} {o o' : Outset} {w w' : World}

namespace Abreast

variable (h : Abreast o o' w w')

include h

/-! ## Calls that succeed -/

theorem reactToReply (hr : run.Agrees o o') (r : Reply) (reaction : Reaction) :
    Agree o o' (World.reactToReply run r reaction w) (World.reactToReply run r reaction w') := by
  cases reaction with
  | host kind c => exact h.callHost hr ..
  | startup step => exact (h.continueStartup hr ..).agree _

theorem continueWithReply (hr : run.Agrees o o') (r : Reply) (k : Continuation) :
    Agree o o' (World.continueWithReply run r k w) (World.continueWithReply run r k w') := by
  cases k with
  | reaction reaction => exact h.reactToReply hr r reaction
  | serverStarted => exact (h.serverStarted hr _).agree _
  | afterStart hs => exact h.afterStart hr hs
  | afterEditorInfo hs => exact (h.afterEditorInfo hr hs).agree _
  | fetched task sink =>
    cases r with
    | completions result => exact h.fetchAnswered hr task result sink
    | value _ => exact h.agree _
  | _ => exact h.agree _

theorem fulfilCall (hr : run.Agrees o o') (id : Nat) (r : Reply) :
    Abreast o o' (World.fulfilCall run id r w) (World.fulfilCall run id r w') := by
  unfold World.fulfilCall
  rw [h.call?]
  cases w.client.call? id with
  | none => exact h
  | some c =>
    dsimp only
    split
    · exact h
    · exact (h.updateClient fun _ _ => rfl).foldl
        (fun k u u' hu => (hu.continueWithReply hr r k).callBack) _

theorem andThen (hr : run.Agrees o o') (id : Nat) (onResult onError : List Continuation) :
    Abreast o o' (World.andThen run id onResult onError w)
      (World.andThen run id onResult onError w') := by
  unfold World.andThen
  rw [h.call?]
  cases w.client.call? id with
  | none => exact h
  | some c =>
    dsimp only
    split
    · exact h.foldl (fun k u u' hu => (hu.continueWithReply hr _ k).callBack) _
    · exact h.foldl (fun k u u' hu => (hu.continueWithError hr _ k).callBack) _
    · exact h.updateClient fun _ _ => rfl

/-! ## The handshake -/

theorem startServer (hr : run.Agrees o o') (params : Json)
    (onResult onError : List Continuation) :
    Agree o o' (World.startServer run params onResult onError w)
      (World.startServer run params onResult onError w') := by
  unfold World.startServer
  refine (h.request hr ..).onward fun id u u' hu => ?_
  exact ((hu.andThen hr ..).andThen hr ..).agree _

theorem handshake (hr : run.Agrees o o') (folder trace processId : Json) (hs : Handshake) :
    Agree o o' (World.handshake run folder trace processId hs w)
      (World.handshake run folder trace processId hs w') := by
  unfold World.handshake
  rw [h.processId]
  cases (orGiven processId (.int w.processId)).toInteger with
  | error f => exact h.agree _
  | ok n => exact (h.startServer hr ..).map Except.ok

/-! ## Responses -/

theorem rejectResult (hr : run.Agrees o o') (p : PendingCall) (f : Fault) :
    Abreast o o' (World.rejectResult run p f w) (World.rejectResult run p f w') :=
  (h.clientLog ..).rejectCall hr ..

theorem settleResult (hr : run.Agrees o o') (p : PendingCall) (result : Json) :
    Abreast o o' (World.settleResult run p result w) (World.settleResult run p result w') := by
  unfold World.settleResult
  cases p.treatment with
  | asIs => exact h.fulfilCall hr ..
  | account =>
    dsimp only
    split
    · exact (h.reportAccount hr _).fulfilCall hr ..
    · exact h.fulfilCall hr ..
  | completions =>
    dsimp only
    cases CompletionResult.ofJson result with
    | ok r => exact h.fulfilCall hr ..
    | error f => exact h.rejectResult hr p f
  | host t =>
    cases t with
    | wrap key => exact (h.record _ rfl).fulfilCall hr ..
    | refuse f => exact (h.record _ rfl).rejectResult hr p f

theorem handleResponse (hr : run.Agrees o o') (id result : Json) (error : Option ResponseError) :
    Abreast o o' (World.handleResponse run id result error w)
      (World.handleResponse run id result error w') := by
  unfold World.handleResponse
  split
  · exact h.clientLog ..
  · rw [h.client (r := Client.pendingFor? id) fun _ _ => rfl]
    cases w.client.pendingFor? id with
    | none => exact h.clientLog ..
    | some p =>
      have hdrop := h.updateClient (f := fun c => c.dropPending p.id) fun _ _ => rfl
      cases error with
      | some e => exact hdrop.rejectCall hr ..
      | none => exact hdrop.settleResult hr ..

/-! ## Requests of the peer -/

theorem changeRegistrations (n : Nat) (change : Registrations → Except Fault Registrations) :
    Agree o o' (World.changeRegistrations n change w) (World.changeRegistrations n change w') := by
  unfold World.changeRegistrations
  rw [h.client (r := Client.registrations) fun _ _ => rfl]
  cases change w.client.registrations with
  | error f => exact h.agree _
  | ok rs => exact ((h.updateClient fun _ _ => rfl).succeed ..).agree _

theorem callRequestHandler (hr : run.Agrees o o') (n : Nat) (method : String) (params id : Json)
    (handler : RequestHandler) :
    Agree o o' (World.callRequestHandler run n method params id handler w)
      (World.callRequestHandler run n method params id handler w') := by
  cases handler with
  | user kind script =>
    cases script with
    | none => exact h.agree _
    | some script => exact hr _ _ _ (h.record _ rfl)
  | reserved r => cases r <;> exact h.changeRegistrations ..

theorem handlerFailed (n : Nat) (method : String) (f : Fault) :
    Abreast o o' (w.handlerFailed n method f) (w'.handlerFailed n method f) := by
  unfold World.handlerFailed
  have hlog := h.clientLog .error ("Handler for " ++ method ++ " raised")
  dsimp only
  rw [hlog.context?]
  split
  · exact hlog
  · exact hlog.failAs ..

theorem handleRequest (hr : run.Agrees o o') (n : Nat) (id : Json) (method : String)
    (params : Json) :
    Abreast o o' (World.handleRequest run n id method params w)
      (World.handleRequest run n id method params w') := by
  unfold World.handleRequest
  rw [h.client (r := Client.handlers) fun _ _ => rfl]
  cases w.client.handlers.request? method with
  | none =>
    dsimp only
    split
    · exact h.failAs ..
    · exact h.clientLog ..
  | some handler =>
    have hopen := h.updateClient (f := fun c => c.openRequest id) fun _ _ => rfl
    dsimp only
    refine (hopen.callRequestHandler hr n method params id handler).onward fun a u u' hu => ?_
    cases a with
    | ok _ => exact hu
    | error f => exact hu.handlerFailed n method f

/-! ## Notifications of the peer -/

theorem suppressLogging (n : Nat) : Abreast o o' (w.suppressLogging n) (w'.suppressLogging n) :=
  h.updateClient fun _ _ => rfl

theorem takeReserved (n : Nat) (params : Json) (r : ReservedNotification) :
    Agree o o' (World.takeReserved n params r w) (World.takeReserved n params r w') := by
  cases r with
  | cancelRequest =>
    unfold World.takeReserved
    dsimp only
    split
    · exact h.agree _
    · have hopen := h.client (r := fun c => Client.contains c.inFlight (params.fieldD "id"))
        fun _ _ => rfl
      by_cases hs : (params.fieldD "id").isStructured
      · simp only [Client.markCancelled, hs, if_true]
        exact h.agree _
      · by_cases hc : Client.contains w.client.inFlight (params.fieldD "id")
        · have hc' := hopen.trans hc
          simp only [Client.markCancelled, hs, hc, hc', if_true, if_false, Bool.false_eq_true]
          exact (h.updateClient (f := fun c => { c with
            cancelled := Client.insertId (params.fieldD "id") c.cancelled })
              fun _ _ => rfl).agree _
        · have hc' : ¬ Client.contains w'.client.inFlight (params.fieldD "id") := hopen ▸ hc
          simp only [Client.markCancelled, hs, hc, hc', if_false, Bool.false_eq_true]
          exact h.agree _
  | progress => exact (h.signal _).agree _
  | logTrace => exact (h.clientLog ..).agree _
  | logMessage =>
    unfold World.takeReserved
    dsimp only
    cases LogLevel.ofMessageType (params.fieldD "type") with
    | error f => exact (h.suppressLogging n).agree _
    | ok level => exact ((h.suppressLogging n).clientLog ..).agree _

/-- How much of what the server says is kept differs, and nothing else. -/
theorem takeServerLog (n : Nat) (params : Json) :
    Abreast o o' (w.takeServerLog n params) (w'.takeServerLog n params) :=
  (h.suppressLogging n).clientLog ..

theorem takeServerStatus (hr : run.Agrees o o') (params : Json) :
    Abreast o o' (World.takeServerStatus run params w) (World.takeServerStatus run params w') := by
  unfold World.takeServerStatus
  dsimp only
  cases Status.ofName? (params.fieldD "status").textOrEmpty with
  | some s => exact h.changeStatus hr s
  | none => exact h.clientLog ..

theorem callNotificationHandler (hr : run.Agrees o o') (n : Nat) (method : String) (params : Json)
    (handler : NotificationHandler) :
    Agree o o' (World.callNotificationHandler run n method params handler w)
      (World.callNotificationHandler run n method params handler w') := by
  cases handler with
  | reserved r => exact h.takeReserved n params r
  | user e =>
    cases e with
    | script script => exact hr _ _ _ (h.record _ rfl)
    | notCallable => exact h.agree _
    | serverLog => exact (h.takeServerLog n params).agree _
    | serverStatus => exact (h.takeServerStatus hr params).agree _
    | reserved => exact h.agree _

theorem handleNotification (hr : run.Agrees o o') (n : Nat) (method : String) (params : Json) :
    Abreast o o' (World.handleNotification run n method params w)
      (World.handleNotification run n method params w') := by
  unfold World.handleNotification
  rw [h.client (r := Client.handlers) fun _ _ => rfl]
  refine Abreast.signal ?_ _
  cases w.client.handlers.notification? method with
  | none => exact h
  | some handler =>
    dsimp only
    refine (h.callNotificationHandler hr n method params handler).onward fun a u u' hu => ?_
    cases a with
    | ok _ => exact hu
    | error f => exact hu.clientLog ..

/-! ## Messages -/

theorem openContext (method : String) (id : Json) (isRequest : Bool) :
    Agree o o' (w.openContext method id isRequest) (w'.openContext method id isRequest) :=
  ⟨h.client (r := fun c => (c.addContext method id isRequest).1) fun _ _ => rfl,
    h.updateClient (f := fun c => (c.addContext method id isRequest).2) fun _ _ => rfl⟩

theorem logIncoming (n : Nat) (v : Json) :
    Abreast o o' (w.logIncoming n v) (w'.logIncoming n v) := by
  unfold World.logIncoming
  rw [h.context?]
  split
  · exact h
  · exact h.logTraffic ..

theorem handleMessage (hr : run.Agrees o o') (v : Json) (m : Message) :
    Abreast o o' (World.handleMessage run v w m) (World.handleMessage run v w' m) := by
  cases m with
  | response id result error => exact (h.handleResponse hr ..).logTraffic ..
  | request id method params =>
    unfold World.handleMessage
    dsimp only
    refine (h.openContext method id true).onward fun n u u' hu => ?_
    exact (hu.handleRequest hr ..).logIncoming n v
  | notification method params =>
    unfold World.handleMessage
    dsimp only
    refine (h.openContext method .null false).onward fun n u u' hu => ?_
    exact (hu.handleNotification hr ..).logIncoming n v

/-- A message does the same on both sides, whatever it is. -/
theorem dispatch (hr : run.Agrees o o') (b : Frame.Body) :
    Abreast o o' (World.dispatch run w b) (World.dispatch run w' b) := by
  cases b with
  | malformed raw e => exact h.clientLog ..
  | value v =>
    unfold World.dispatch
    dsimp only
    cases Message.classify v with
    | error violation => exact h.clientLog ..
    | ok m => exact h.handleMessage hr v m

/-- The same messages come of the same bytes. -/
theorem receive (hr : run.Agrees o o') (bytes : List UInt8) :
    Abreast o o' (World.receive run bytes w) (World.receive run bytes w') := by
  unfold World.receive
  rw [h.client (r := Client.reader) fun _ _ => rfl]
  have hread := h.updateClient (f := fun c => { c with
    reader := (w.client.reader.feed bytes).reader }) fun _ _ => rfl
  refine Abreast.foldl (Abreast.foldl hread (fun header u u' hu => ?_) _)
    (fun b u u' hu => hu.dispatch hr b) _
  exact hu.log (.skipped header)

/-! ## Actions -/

theorem contextView (c : Context) : w'.contextView c = w.contextView c := by
  unfold World.contextView
  rw [h.client (r := Client.isCancelled c.id) fun _ _ => rfl]

theorem performContext (hr : run.Agrees o o') (n : Nat) (a : ContextAction) :
    Agree o o' (World.performContext run n a w) (World.performContext run n a w') := by
  cases a with
  | succeed value => exact (h.succeed ..).agree _
  | reject code message data => exact (h.failWith ..).map _
  | suppressLogging => exact (h.suppressLogging n).agree _
  | defer => exact (h.updateHost _).agree _
  | log level text => exact (h.clientLog ..).agree _
  | send m =>
    exact (h.send hr m.toJson).map fun sent =>
      (.ok (.value (.bool sent)) : Except Fault Answer)
  | view =>
    unfold World.performContext
    dsimp only
    rw [h.context?]
    cases w.client.context? n with
    | none => exact h.agree _
    | some c =>
      dsimp only
      rw [h.contextView]
      exact (h.record _ rfl).agree _

theorem handleRequests (method : String) (spec : HandlerSpec Action) :
    Abreast o o' (w.handleRequests method spec) (w'.handleRequests method spec) := by
  unfold World.handleRequests
  rw [h.client (r := Client.handlers) fun _ _ => rfl]
  dsimp only
  cases (w.client.handlers.setRequest method spec).2 with
  | none => exact h.updateClient fun _ _ => rfl
  | some warning => exact (h.clientLog ..).updateClient fun _ _ => rfl

theorem handleNotifications (method : String) (spec : HandlerSpec Action) :
    Abreast o o' (w.handleNotifications method spec) (w'.handleNotifications method spec) :=
  h.updateClient fun _ _ => rfl

end Abreast

theorem Agree.answerCall {r r' : Nat × World} (h : Agree o o' r r') :
    Agree o o' (World.answerCall r) (World.answerCall r') := by
  unfold World.answerCall
  refine h.onward fun id u u' hu => ?_
  dsimp only
  rw [hu.call?]
  cases u.client.call? id with
  | none => exact hu.agree _
  | some c => exact hu.agree _

theorem Agree.answerCallOf {r r' : Except Fault Nat × World} (h : Agree o o' r r') :
    Agree o o' (World.answerCallOf r) (World.answerCallOf r') := by
  unfold World.answerCallOf
  refine h.onward fun a u u' hu => ?_
  cases a with
  | error f => exact hu.agree _
  | ok id => exact (hu.agree id).answerCall

theorem Agree.done {r r' : Except Fault Unit × World} (h : Agree o o' r r') :
    Agree o o' (World.done r) (World.done r') :=
  h.map _

theorem Agree.answerNumber {r r' : Except Fault Nat × World} (h : Agree o o' r r') :
    Agree o o' (World.answerNumber r) (World.answerNumber r') :=
  h.map fun a => a.map fun n => Answer.value (.int n)

theorem Agree.answerFlag {r r' : Bool × World} (h : Agree o o' r r') :
    Agree o o' (World.answerFlag r) (World.answerFlag r') :=
  h.map fun b => (.ok (.value (.bool b)) : Except Fault Answer)

namespace Abreast

variable (h : Abreast o o' w w')

include h

theorem performClient (hr : run.Agrees o o') (a : ClientAction Action) :
    Agree o o' (World.performClient run a w) (World.performClient run a w') := by
  cases a with
  | request kind method params r transform => exact (h.request hr ..).answerCall
  | notify method params => exact (h.notify ..).agree _
  | send m => exact (h.send hr _).answerFlag
  | cancelRequest id => exact (h.cancelRequest id).done
  | cancelCall id => exact (h.cancelCall id).done
  | showCall id => exact (h.agree id).answerCall
  | andThen id r => exact ((h.andThen hr ..).agree id).answerCall
  | receive bytes => exact (h.receive hr bytes).agree _
  | handleRequests method spec => exact (h.handleRequests ..).agree _
  | handleNotifications method spec => exact (h.handleNotifications ..).agree _
  | removeHandler method => exact (h.updateClient fun _ _ => rfl).agree _
  | resolve method =>
    unfold World.performClient
    dsimp only
    rw [h.client (r := Client.handlers) fun _ _ => rfl]
    exact h.agree _
  | acceptWrites accept =>
    unfold World.performClient
    dsimp only
    rw [h.transport]
    exact (h.withTransport _).agree _
  | startServer params r => exact (h.startServer hr ..).answerCall
  | shutdown r => exact (h.request hr ..).answerCall
  | sendInitialized => exact h.sendInitialized.agree _
  | traceAt level => exact (h.notify ..).agree _
  | exit => exact (h.notify ..).agree _
  | openDocument uri languageId version text => exact (h.didOpen ..).done
  | changeDocument uri version changes => exact (h.didChange ..).done
  | closeDocument uri => exact (h.didClose uri).agree _
  | changeFolders added removed => exact (h.didChangeFolders ..).done
  | close => exact h.closeClient.agree _
  | stopTransport => exact (h.record _ rfl).closeClient.agree _
  | transportStatus text => exact (h.statusMessage text).agree _
  | verbosity level =>
    -- The answer is about the verbosity that was just chosen, not about the one from before.
    exact ⟨h.client (r := fun c => (.ok (.value (verbosityView
      { c with verbosity := Verbosity.ofJson level })) : Except Fault Answer)) fun _ _ => rfl,
      h.choose _⟩
  | logTraffic enabled => exact (h.updateClient fun _ _ => rfl).agree _
  | capabilities =>
    unfold World.performClient
    dsimp only
    rw [h.client (r := Client.capabilities) fun _ _ => rfl]
    exact h.agree _
  | registrations =>
    unfold World.performClient
    dsimp only
    rw [h.client (r := Client.registrations) fun _ _ => rfl]
    exact h.agree _

theorem nameSubscriber (label : String) (script : Script) :
    Abreast o o' (w.nameSubscriber label script) (w'.nameSubscriber label script) :=
  h.updateHost _

theorem performAssistant (hr : run.Agrees o o') (a : AssistantAction Action) :
    Agree o o' (World.performAssistant run a w) (World.performAssistant run a w') := by
  cases a with
  | version r => exact (h.getVersion hr ..).answerCall
  | checkStatus localOnly r => exact (h.checkStatus hr ..).answerCall
  | signIn r => exact (h.signIn hr ..).answerCall
  | confirmSignIn code r => exact (h.confirmSignIn hr ..).answerCall
  | signOut r => exact (h.signOut hr ..).answerCall
  | editorInfo editor plugin r => exact (h.setEditorInfo hr ..).answerCallOf
  | completions options cycling r => exact (h.getCompletions hr ..).answerCallOf
  | completionParams options =>
    unfold World.performAssistant
    dsimp only
    rw [h.completionParams]
    exact h.agree _
  | notifyShown uuid => exact (h.notifyShown _).agree _
  | notifyAccepted uuid => exact (h.notifyAccepted _).agree _
  | notifyRejected uuids =>
    unfold World.performAssistant
    dsimp only
    cases uuids.items with
    | error f => exact h.agree _
    | ok uuids => exact (h.notifyRejected _).agree _
  | accountStatus status => exact (h.reportAccount hr status).agree _
  | requestActivity busy => exact (h.reportActivity hr busy).agree _
  | subscribe event label script =>
    unfold World.performAssistant
    dsimp only
    cases Topic.ofName? event with
    | none => exact (h.nameSubscriber ..).agree _
    | some t => exact ((h.nameSubscriber ..).updateAssistant _).agree _
  | unsubscribe event label =>
    unfold World.performAssistant
    dsimp only
    cases Topic.ofName? event with
    | none => exact (h.nameSubscriber ..).agree _
    | some t => exact ((h.nameSubscriber ..).updateAssistant _).agree _
  | handshake folder editor plugin trace processId onReady onError =>
    exact (h.handshake hr ..).answerCallOf
  | openDocument uri languageId text =>
    unfold World.performAssistant
    dsimp only
    refine (h.openAtZero uri languageId text).onward fun u u' hu => ?_
    rw [hu.assistant]
    exact hu.agree _
  | changeDocument uri text changes => exact (h.changeVersion ..).answerNumber

theorem performTask (hr : run.Agrees o o') (a : TaskAction Action) :
    Agree o o' (World.performTask run a w) (World.performTask run a w') := by
  cases a with
  | start position c => exact (h.startFetch hr ..).answerNumber
  | cancel id => exact (h.cancelFetch hr id).done
  | cancelAll => exact (h.cancelFetches hr).agree _
  | configure s =>
    unfold World.performTask
    dsimp only
    refine (h.updateFetches (withSettings s)).onward fun u u' hu => ?_
    rw [hu.fetches]
    exact hu.agree _

theorem showSuggestion (c : Completion) (inline : Bool) :
    Agree o o' (w.showSuggestion c inline) (w'.showSuggestion c inline) := by
  unfold World.showSuggestion
  rw [h.canvas]
  dsimp only
  rw [(h.updateCanvas _).host]
  exact ((h.updateCanvas _).updateHost _).agree _

theorem removeArtifact (index : Nat) :
    Abreast o o' (w.removeArtifact index) (w'.removeArtifact index) := by
  unfold World.removeArtifact
  rw [h.host, h.canvas]
  cases w.host.artifacts[index]? with
  | none => exact h
  | some a => exact (h.updateCanvas _).updateHost _

theorem performEditor (hr : run.Agrees o o') (a : EditorAction) :
    Agree o o' (World.performEditor run a w) (World.performEditor run a w') := by
  cases a with
  | type text => exact (h.insertText hr ..).agree _
  | insert text origin => exact (h.insertText hr ..).agree _
  | replace range text origin => exact (h.replaceRange hr ..).done
  | move p => exact (h.moveCaret hr p).done
  | key key =>
    exact (h.pressKey hr key.textOrEmpty).map fun handled => (.ok (.value (.obj
      [("key", .str key.textOrEmpty), ("handled", .bool handled)])) : Except Fault Answer)
  | toggleMode entering => exact (h.toggleMode entering).agree _
  | undo => exact (h.undo hr).map _
  | focus focused => exact (h.updateEditor _).agree _
  | filePath path =>
    unfold World.performEditor
    dsimp only
    refine (h.updateEditor fun e => { e with filePath := path.textOrEmpty }).onward
      fun u u' hu => ?_
    rw [hu.editor, hu.buffer]
    exact hu.agree _
  | snapshot =>
    unfold World.performEditor
    dsimp only
    rw [h.buffer]
    exact (h.updateHost _).agree _
  | restore index =>
    unfold World.performEditor
    dsimp only
    rw [h.host]
    exact (h.updateBuffer _).agree _
  | panel text => exact (h.updateCanvas _).agree _
  | blockSignals blocked => exact (h.updateEditor _).agree _
  | showSuggestion completion inline =>
    unfold World.performEditor
    dsimp only
    cases Completion.ofJson completion with
    | error f => exact h.agree _
    | ok c => exact (h.showSuggestion c inline).map fun n =>
        (.ok (.value (.int n)) : Except Fault Answer)
  | findArtifact index =>
    unfold World.performEditor
    dsimp only
    rw [h.host, h.canvas]
    exact h.agree _
  | removeArtifact index => exact (h.removeArtifact index).agree _

theorem answerSession (n : Nat) :
    Agree o o' (World.answerSession n w) (World.answerSession n w') := by
  unfold World.answerSession World.sessionView
  rw [h.session?, h.canvas]
  cases w.session? n with
  | none => exact h.agree _
  | some s => exact h.agree _

theorem performSession (hr : run.Agrees o o') (a : SessionAction) :
    Agree o o' (World.performSession run a w) (World.performSession run a w') := by
  cases a with
  | create completion inline acceptKey withTasks =>
    unfold World.performSession
    dsimp only
    cases Completion.ofJson completion with
    | error f => exact h.agree _
    | ok c =>
      dsimp only
      rw [h.sessions]
      exact (h.withSessions _).answerSession _
  | view n => exact h.answerSession n
  | start n =>
    unfold World.performSession
    dsimp only
    refine (h.startOnce n).onward fun a u u' hu => ?_
    cases a with
    | error f => exact hu.agree _
    | ok _ => exact hu.answerSession n
  | accept n => exact (h.acceptSession hr n).answerFlag
  | reject n reason => exact (h.rejectSession ..).answerFlag

theorem answerConfig : Agree o o' (World.answerConfig w) (World.answerConfig w') := by
  unfold World.answerConfig
  rw [h.controller]
  cases w.controller with
  | none => exact h.agree _
  | some c => exact h.agree _

theorem performController (hr : run.Agrees o o') (a : ControllerAction) :
    Agree o o' (World.performController run a w) (World.performController run a w') := by
  cases a with
  | openDocument => exact h.openDocument.done
  | switchFile newPath oldPath => exact (h.switchFile ..).done
  | switchFolder newFolder oldFolder => exact (h.switchFolder ..).done
  | accept => exact (h.acceptCurrent hr).answerFlag
  | reject reason => exact (h.rejectCurrent _).answerFlag
  | present completion =>
    unfold World.performController
    dsimp only
    cases Completion.ofJson completion with
    | error f => exact h.agree _
    | ok c => exact (h.present c).agree _
  | flush => exact (h.flush hr).done
  | requestCompletion => exact (h.requestCompletion hr).answerNumber
  | updateSettings settings =>
    unfold World.performController
    dsimp only
    refine (h.updateSettings hr settings).onward fun a u u' hu => ?_
    cases a with
    | error f => exact hu.agree _
    | ok _ => exact hu.answerConfig
  | config => exact h.answerConfig
  | bindSettings initial => exact (h.bindSettings hr initial).done
  | storeValue key value => exact (h.storeValue hr key value).map _
  | unbind => exact h.unbind.agree _
  | shutdown => exact (h.shutdownController hr).agree _
  | tick => exact (h.tick hr).agree _

omit h in
/-- An action is answered alike, by induction over the actions within it. -/
theorem perform (hr : run.Agrees o o') (context : Option Nat) (a : Action) {w w' : World}
    (h : Abreast o o' w w') :
    Agree o o' (World.perform run context a w) (World.perform run context a w') :=
  match a with
  | .within n b => by
    simp only [World.perform, h.host]
    exact perform hr _ b h
  | .raise f => h.agree _
  | .context a =>
    match context with
    | none => h.agree _
    | some n => h.performContext hr n a
  | .client a => h.performClient hr a
  | .assistant a => h.performAssistant hr a
  | .task a => h.performTask hr a
  | .editor a => h.performEditor hr a
  | .session a => h.performSession hr a
  | .controller a => h.performController hr a

theorem performAll (hr : run.Agrees o o') (context : Option Nat) (s : Script) :
    Agree o o' (World.performAll run context s w) (World.performAll run context s w') := by
  induction s generalizing w w' with
  | nil => exact h.agree _
  | cons a s ih =>
    unfold World.performAll
    refine (perform hr context a h).onward fun answer u u' hu => ?_
    cases answer with
    | error f => exact hu.agree _
    | ok _ => exact ih hu

end Abreast

/-- However deeply scripts make one another run, they do the same in worlds that are abreast. -/
theorem agrees_runTo (depth : Nat) (o o' : Outset) : (runTo depth).Agrees o o' := by
  induction depth with
  | zero => exact fun i w w' h => h.agree _
  | succ depth ih =>
    intro i w w' h
    cases i with
    | script context actions => exact h.performAll ih context actions
    | deliver bytes => exact (h.receive ih bytes).agree _

/-- One action of the host is answered alike, and what is said is the same. -/
theorem Abreast.act {w w' : World} (h : Abreast o o' w w') (a : Action) :
    Agree o o' (World.act a w) (World.act a w') :=
  Abreast.perform (agrees_runTo depthLimit o o') none a h

end GhostText.World
