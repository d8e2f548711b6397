import GhostText.Client.Dispatch

/-!
# Performing actions

Each action is an operation of one of the parts, and answers with what that operation gives back.
-/

namespace GhostText

/-- What an action answers. -/
inductive Answer where
  | nothing
  | value (v : Json)
  | call (c : Call)
  | context (v : ContextView)
  | config (c : Config)
  | session (v : SessionView)

namespace World

variable (run : Runner)

/-! ## Messages of the peer -/

def contextView (c : Context) (w : World) : ContextView :=
  ⟨c, c.isRequest && w.client.isCancelled c.id⟩

def performContext (n : Nat) : ContextAction → Act World Answer
  | .succeed value => fun w => (.ok .nothing, w.succeed n value)
  | .reject code message data => fun w =>
    let r := failWith n (ResponseError.ofParts code message data) w
    (r.1.map fun _ => .nothing, r.2)
  | .suppressLogging => fun w => (.ok .nothing, w.suppressLogging n)
  | .defer => fun w =>
    (.ok .nothing, w.updateHost fun h => { h with deferred := h.deferred ++ [n] })
  | .log level text => fun w => (.ok .nothing, w.clientLog level text)
  | .send m => fun w =>
    let r := send run m.toJson w
    (.ok (.value (.bool r.1)), r.2)
  | .view => fun w =>
    match w.client.context? n with
    | none => (.ok .nothing, w)
    | some c => (.ok (.context (w.contextView c)), w.record (.contextViewed (w.contextView c)))

/-! ## The client -/

/-- The callbacks of a host as continuations. -/
def hostContinuation (kind : CallbackKind) (c : Option (Callback Action)) : List Continuation :=
  c.toList.map fun c => .reaction (.host kind c)

def onResult (r : Reactions Action) : List Continuation := hostContinuation .result r.onResult

def onError (r : Reactions Action) : List Continuation := hostContinuation .error r.onError

/-- Answers with a call as it stands now. -/
def answerCall (r : Nat × World) : Except Fault Answer × World :=
  match r.2.client.call? r.1 with
  | none => (.ok .nothing, r.2)
  | some c => (.ok (.call c), r.2)

def answerCallOf (r : Except Fault Nat × World) : Except Fault Answer × World :=
  match r with
  | (.error f, w) => (.error f, w)
  | (.ok id, w) => answerCall (id, w)

def done (r : Except Fault Unit × World) : Except Fault Answer × World :=
  (r.1.map fun _ => .nothing, r.2)

def answerNumber (r : Except Fault Nat × World) : Except Fault Answer × World :=
  (r.1.map fun n => .value (.int n), r.2)

def answerFlag (r : Bool × World) : Except Fault Answer × World := (.ok (.value (.bool r.1)), r.2)

def ownerName (isUser : Bool) : Json := .str (if isUser then "user" else "protocol")

/-- Who would handle a method. -/
def resolution (method : String) (h : Handlers) : Json :=
  let request := (h.request? method).map fun r => Json.arr [.str r.kind.name, ownerName r.isUser]
  let notification := (h.notification? method).map fun n => ownerName n.isUser
  .obj [("request", request.getD .null), ("notification", notification.getD .null)]

def logLevels : List LogLevel := [.debug, .info, .warning, .error, .critical]

/-- What the client logs. -/
def verbosityView (c : Client) : Json :=
  .arr [.str c.verbosity.name, .arr (logLevels.map fun l => .bool (c.logs l)), .str c.logTag]

/-- Enters a handler for requests; a kind that is not taken is a warning. -/
def handleRequests (method : String) (spec : HandlerSpec Action) (w : World) : World :=
  let r := w.client.handlers.setRequest method spec
  let w := match r.2 with
    | none => w
    | some warning => w.clientLog .warning (warning.message method)
  w.updateClient fun c => { c with handlers := r.1 }

def handleNotifications (method : String) (spec : HandlerSpec Action) (w : World) : World :=
  w.updateClient fun c => { c with handlers := c.handlers.setNotification method spec }

def treatmentOf (transform : Option HostTransform) : Treatment :=
  (transform.map .host).getD .asIs

def performClient : ClientAction Action → Act World Answer
  | .request kind method params r transform => fun w =>
    answerCall (request run ((CallKind.ofName? kind).getD .query) method params (onResult r)
      (onError r) (treatmentOf transform) w)
  | .notify method params => fun w => (.ok .nothing, w.notify method.textOrEmpty params)
  | .send m => fun w => answerFlag (send run m.toJson w)
  | .cancelRequest id => fun w => done (cancelRequest id w)
  | .cancelCall id => fun w => done (cancelCall id w)
  | .showCall id => fun w => answerCall (id, w)
  | .andThen id r => fun w => answerCall (id, andThen run id (onResult r) (onError r) w)
  | .receive bytes => fun w => (.ok .nothing, receive run bytes w)
  | .handleRequests method h => fun w => (.ok .nothing, w.handleRequests method.textOrEmpty h)
  | .handleNotifications method h => fun w =>
    (.ok .nothing, w.handleNotifications method.textOrEmpty h)
  | .removeHandler method => fun w =>
    (.ok .nothing, w.updateClient fun c =>
      { c with handlers := c.handlers.remove method.textOrEmpty })
  | .resolve method => fun w => (.ok (.value (resolution method w.client.handlers)), w)
  | .acceptWrites accept => fun w =>
    (.ok .nothing, { w with transport := { w.transport with accepting := accept } })
  | .startServer params r => fun w => answerCall (startServer run params (onResult r) (onError r) w)
  | .shutdown r => fun w =>
    answerCall (request run .mutation (.str "shutdown") .null (onResult r) (onError r) .asIs w)
  | .sendInitialized => fun w => (.ok .nothing, w.sendInitialized)
  | .traceAt level => fun w =>
    (.ok .nothing, w.notify "$/setTrace" (.obj [("value", .str (level.textOr "off"))]))
  | .exit => fun w => (.ok .nothing, w.notify "exit" .null)
  | .openDocument uri languageId version text => fun w =>
    done (didOpen uri languageId version text w)
  | .changeDocument uri version changes => fun w => done (didChange uri version changes w)
  | .closeDocument uri => fun w => (.ok .nothing, w.didClose uri)
  | .changeFolders added removed => fun w => done (didChangeFolders added removed w)
  | .close => fun w => (.ok .nothing, w.closeClient)
  | .stopTransport => fun w => (.ok .nothing, (w.record .transportStopped).closeClient)
  | .transportStatus text => fun w => (.ok .nothing, w.statusMessage text)
  | .verbosity level => fun w =>
    let w := w.updateClient fun c => { c with verbosity := Verbosity.ofJson level }
    (.ok (.value (verbosityView w.client)), w)
  | .logTraffic enabled => fun w =>
    (.ok .nothing, w.updateClient fun c => { c with logsTraffic := enabled.truthy })
  | .capabilities => fun w => (.ok (.value w.client.capabilities), w)
  | .registrations => fun w => (.ok (.value (.obj w.client.registrations)), w)

/-! ## The assistant -/

/-- The script of a subscriber is the one its label was first used with. -/
def nameSubscriber (label : String) (script : Script) (w : World) : World :=
  w.updateHost fun h =>
    if (h.subscribers.lookup label).isSome then h
    else { h with subscribers := h.subscribers ++ [(label, script)] }

def unknownTopic (event : Json) : Fault :=
  .unknownEvent event.quotedText (Topic.all.map Topic.name)

def performAssistant : AssistantAction Action → Act World Answer
  | .version r => fun w => answerCall (getVersion run (onResult r) (onError r) w)
  | .checkStatus localOnly r => fun w =>
    answerCall (checkStatus run localOnly (onResult r) (onError r) w)
  | .signIn r => fun w => answerCall (signIn run (onResult r) (onError r) w)
  | .confirmSignIn code r => fun w => answerCall (confirmSignIn run code (onResult r) (onError r) w)
  | .signOut r => fun w => answerCall (signOut run (onResult r) (onError r) w)
  | .editorInfo editor plugin r => fun w =>
    answerCallOf (setEditorInfo run editor plugin (onResult r) (onError r) w)
  | .completions options cycling r => fun w =>
    answerCallOf (getCompletions run options cycling (onResult r) (onError r) w)
  | .completionParams options => fun w => ((completionParams options w).map .value, w)
  | .notifyShown uuid => fun w => (.ok .nothing, w.notifyShown uuid.shown)
  | .notifyAccepted uuid => fun w => (.ok .nothing, w.notifyAccepted uuid.shown)
  | .notifyRejected uuids => fun w =>
    match uuids.items with
    | .error f => (.error f, w)
    | .ok uuids => (.ok .nothing, w.notifyRejected (uuids.map Json.shown))
  | .accountStatus status => fun w => (.ok .nothing, reportAccount run status w)
  | .requestActivity busy => fun w => (.ok .nothing, reportActivity run busy w)
  | .subscribe event label script => fun w =>
    let w := w.nameSubscriber label script
    match Topic.ofName? event with
    | none => (.error (unknownTopic event), w)
    | some t => (.ok .nothing, w.updateAssistant fun a => a.subscribe t (.host label))
  | .unsubscribe event label => fun w =>
    let w := w.nameSubscriber label []
    match Topic.ofName? event with
    | none => (.error (unknownTopic event), w)
    | some t => (.ok .nothing, w.updateAssistant fun a => a.unsubscribe t (.host label))
  | .handshake folder editor plugin trace processId onReady onError => fun w =>
    answerCallOf (handshake run folder trace processId
      ⟨editor, plugin, onReady.map (.host .ready), onError.map (.host .error)⟩ w)
  | .openDocument uri languageId text => fun w =>
    let w := w.openAtZero uri languageId text
    (.ok (.value (.int w.assistant.version)), w)
  | .changeDocument uri text changes => fun w =>
    answerNumber (changeVersion uri (orGiven changes (wholeText text.textOrEmpty)) w)

/-! ## Fetches -/

/-- Attributes that are given take the place of those from before. -/
def withSettings (s : FetchSettings) (t : Fetches) : Fetches :=
  { t with
    workspaceFolder := s.workspaceFolder.getD t.workspaceFolder
    activeFile := s.activeFile.getD t.activeFile
    languageId := s.languageId.getD t.languageId
    tabSize := s.tabSize.getD t.tabSize
    insertSpaces := s.insertSpaces.getD t.insertSpaces }

def sinkOf (c : Option (Callback Action)) : CompletionSink :=
  (c.map .host).getD .nobody

def performTask : TaskAction Action → Act World Answer
  | .start position c => fun w => answerNumber (startFetch run position (sinkOf c) w)
  | .cancel id => fun w => done (cancelFetch run id w)
  | .cancelAll => fun w => (.ok .nothing, cancelFetches run w)
  | .configure s => fun w =>
    let w := w.updateFetches (withSettings s)
    ((relativePath w.fetches).map .value, w)

/-! ## The editor -/

def snapshotView (history : List Snapshot) : Json :=
  .arr (history.reverse.map fun s => .arr [.str (String.ofList s.text), .int s.caret])

/-- Shows a suggestion that belongs to no session. -/
def showSuggestion (c : Completion) (inline : Bool) (w : World) : Nat × World :=
  let shown := w.canvas.display c inline
  let w := w.updateCanvas fun _ => shown.2
  (w.host.artifacts.length, w.updateHost fun h => { h with artifacts := h.artifacts ++ [shown.1] })

def removeArtifact (index : Nat) (w : World) : World :=
  match w.host.artifacts[index]? with
  | none => w
  | some a =>
    let r := a.remove w.canvas
    (w.updateCanvas fun _ => r.2).updateHost fun h =>
      { h with artifacts := h.artifacts.set index r.1 }

def rangeOrNull (r : Option Range) : Json := (r.map Range.toJson).getD .null

def performEditor : EditorAction → Act World Answer
  | .type text => fun w => (.ok .nothing, insertText run text.textOrEmpty.toList "input" w)
  | .insert text origin => fun w => (.ok .nothing, insertText run text.textOrEmpty.toList origin w)
  | .replace range text origin => fun w =>
    done (replaceRange run range text.textOrEmpty.toList origin w)
  | .move p => fun w => done (moveCaret run p w)
  | .key key => fun w =>
    let key := key.textOrEmpty
    let r := pressKey run key w
    (.ok (.value (.obj [("key", .str key), ("handled", .bool r.1)])), r.2)
  | .toggleMode entering => fun w => (.ok .nothing, w.toggleMode entering)
  | .undo => fun w =>
    let r := undo run w
    (r.1.map fun b => .value (.bool b), r.2)
  | .focus focused => fun w =>
    (.ok (.value (.bool focused)), w.updateEditor fun e => { e with focused := focused })
  | .filePath path => fun w =>
    let w := w.updateEditor fun e => { e with filePath := path.textOrEmpty }
    (.ok (.value (.arr [.str w.editor.filePath, .str w.editor.languageId,
      .str (String.ofList w.buffer.eol.text)])), w)
  | .snapshot => fun w =>
    let history := w.buffer.history
    (.ok (.value (snapshotView history)),
      w.updateHost fun h => { h with snapshots := h.snapshots ++ [history] })
  | .restore index => fun w =>
    let history := (index.bind fun n => w.host.snapshots[n]?).getD []
    (.ok .nothing, w.updateBuffer fun b => { b with history := history })
  | .panel text => fun w => (.ok .nothing, w.updateCanvas fun c => { c with panel := text })
  | .blockSignals blocked => fun w =>
    (.ok .nothing, w.updateEditor fun e => { e with blocked := blocked })
  | .showSuggestion completion inline => fun w =>
    match Completion.ofJson completion with
    | .error f => (.error f, w)
    | .ok c =>
      let r := w.showSuggestion c inline
      (.ok (.value (.int r.1)), r.2)
  | .findArtifact index => fun w =>
    (.ok (.value (rangeOrNull ((w.host.artifacts[index]?).bind fun a => a.find? w.canvas))), w)
  | .removeArtifact index => fun w => (.ok .nothing, w.removeArtifact index)

/-! ## Sessions -/

def sessionView (s : Session) (w : World) : SessionView :=
  ⟨s.uuid, s.state, s.reason, s.artifact.bind fun a => a.find? w.canvas⟩

def answerSession (n : Nat) (w : World) : Except Fault Answer × World :=
  match w.session? n with
  | none => (.ok .nothing, w)
  | some s => (.ok (.session (w.sessionView s)), w)

def performSession : SessionAction → Act World Answer
  | .create completion inline acceptKey withTasks => fun w =>
    match Completion.ofJson completion with
    | .error f => (.error f, w)
    | .ok c =>
      let s := Session.propose c inline (acceptKey.textOr "Tab") withTasks false
      answerSession w.sessions.length { w with sessions := w.sessions ++ [s] }
  | .view n => answerSession n
  | .start n => fun w =>
    match startOnce n w with
    | (.error f, w) => (.error f, w)
    | (.ok (), w) => answerSession n w
  | .accept n => fun w => answerFlag (acceptSession run n w)
  | .reject n reason => fun w => answerFlag (w.rejectSession n reason.textOrEmpty)

/-! ## The controller -/

def answerConfig (w : World) : Except Fault Answer × World :=
  match w.controller with
  | none => (.ok .nothing, w)
  | some c => (.ok (.config c.config), w)

def performController : ControllerAction → Act World Answer
  | .openDocument => fun w => done (openDocument w)
  | .switchFile newPath oldPath => fun w => done (switchFile newPath oldPath w)
  | .switchFolder newFolder oldFolder => fun w => done (switchFolder newFolder oldFolder w)
  | .accept => fun w => answerFlag (acceptCurrent run w)
  | .reject reason => fun w => answerFlag (w.rejectCurrent reason.textOrEmpty)
  | .present completion => fun w =>
    match Completion.ofJson completion with
    | .error f => (.error f, w)
    | .ok c => (.ok (.value (.str c.uuid)), w.present c)
  | .flush => fun w => done (flush run w)
  | .requestCompletion => fun w => answerNumber (requestCompletion run w)
  | .updateSettings settings => fun w =>
    match updateSettings run settings w with
    | (.error f, w) => (.error f, w)
    | (.ok (), w) => answerConfig w
  | .config => answerConfig
  | .bindSettings initial => fun w => done (bindSettings run initial w)
  | .storeValue key value => fun w =>
    let r := storeValue run key value w
    (r.1.map fun b => .value (.bool b), r.2)
  | .unbind => fun w => (.ok .nothing, w.unbind)
  | .shutdown => fun w => (.ok .nothing, shutdownController run w)
  | .tick => fun w => (.ok .nothing, tick run w)

/-- Performs an action, in the context of a message if there is one. -/
def perform (context : Option Nat) : Action → Act World Answer
  | .within n a => fun w => perform (w.host.deferred[n]?) a w
  | .raise f => fun w => (.error f, w)
  | .context a =>
    match context with
    | none => fun w => (.ok .nothing, w)
    | some n => performContext run n a
  | .client a => performClient run a
  | .assistant a => performAssistant run a
  | .task a => performTask run a
  | .editor a => performEditor run a
  | .session a => performSession run a
  | .controller a => performController run a

/-- Performs actions in order, up to the first that fails. -/
def performAll (context : Option Nat) : Script → Act World Unit
  | [] => fun w => (.ok (), w)
  | a :: rest => fun w =>
    match perform run context a w with
    | (.error f, w) => (.error f, w)
    | (.ok _, w) => performAll context rest w

variable {run} in
/-- What holds of a world and outlasts every action of a script outlasts the script. -/
theorem performAll_preserves {motive : World → Prop} {context : Option Nat} {s : Script} {w : World}
    (start : motive w)
    (step : ∀ w, motive w → ∀ a ∈ s, motive (perform run context a w).2) :
    motive (performAll run context s w).2 := by
  induction s generalizing w with
  | nil => exact start
  | cons a s ih =>
    have ha := step w start a List.mem_cons_self
    unfold performAll
    generalize perform run context a w = r at ha ⊢
    obtain ⟨_ | _, w₁⟩ := r
    · exact ha
    · exact ih ha fun w hw b hb => step w hw b (List.mem_cons_of_mem a hb)

/-- Runs what is run on behalf of others; what that brings about in turn is run to a depth. -/
def runTo : (depth : Nat) → Runner
  | 0, _ => fun w => (.error .tooDeep, w)
  | depth + 1, .script context actions => performAll (runTo depth) context actions
  | depth + 1, .deliver bytes => fun w => (.ok (), receive (runTo depth) bytes w)

/-- How deeply what is run on behalf of others may bring about more of it. -/
def depthLimit : Nat := 200

/-- One action of the host, and what it answers. -/
def act (a : Action) (w : World) : Except Fault Answer × World :=
  perform (runTo depthLimit) none a w

end World

end GhostText
