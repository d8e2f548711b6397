import GhostText.Assistant.Start
import GhostText.Proofs.Levels.Abreast
import GhostText.Startup.Step

/-!
# Messages and calls side by side

Each of the operations that send, report and request does the same in worlds that are abreast.
-/

namespace GhostText.World

variable {run : Runner} {o o' : Outset} {w w' : World}

namespace Abreast

variable (h : Abreast o o' w w')

include h

/-! ## Sending -/

/-- Traffic is logged at the verbosity of each side, and signalled where that is asked for. -/
theorem logTraffic (direction arrow : String) (payload : Json) :
    Abreast o o' (w.logTraffic direction arrow payload)
      (w'.logTraffic direction arrow payload) := by
  unfold World.logTraffic
  have hlog := h.clientLog .debug (arrow ++ " " ++ Json.line .spaced payload)
  dsimp only
  rw [hlog.client (r := Client.logsTraffic) fun _ _ => rfl]
  split
  · exact hlog.signal _
  · exact hlog

theorem transmit (payload : Json) : Agree o o' (w.transmit payload) (w'.transmit payload) := by
  unfold World.transmit
  rw [h.transport]
  split
  · exact (h.record _ rfl).agree true
  · exact h.agree false

end Abreast

theorem Agree.afterWrite (payload : Json) {r r' : Bool × World} (h : Agree o o' r r') :
    Agree o o' (World.afterWrite payload r) (World.afterWrite payload r') := by
  unfold World.afterWrite
  refine h.onward fun sent u u' hu => ?_
  cases sent with
  | true => exact (hu.logTraffic ..).agree true
  | false => exact (hu.clientLog ..).agree false

namespace Abreast

variable (h : Abreast o o' w w')

include h

theorem post (payload : Json) : Agree o o' (w.post payload) (w'.post payload) :=
  (h.transmit payload).afterWrite payload

/-- An answer that is ready is read on both sides. -/
theorem writeAnswered (hr : run.Agrees o o') (payload answer : Json) :
    Agree o o' (World.writeAnswered run payload answer w)
      (World.writeAnswered run payload answer w') := by
  unfold World.writeAnswered
  refine (h.transmit payload).onward fun sent u u' hu => ?_
  cases sent with
  | false => exact hu.agree false
  | true =>
    dsimp only
    rw [hu.transport]
    cases u.transport.arrival with
    | later => exact (hu.withTransport _).agree true
    | atOnce => exact (hr _ _ _ hu).tell.agree _

theorem send (hr : run.Agrees o o') (payload : Json) :
    Agree o o' (World.send run payload w) (World.send run payload w') := by
  unfold World.send
  rw [h.transport]
  cases w.transport.answerTo? payload with
  | none => exact h.post payload
  | some answer => exact (h.writeAnswered hr payload answer).afterWrite payload

theorem notify (method : String) (params : Json) :
    Abreast o o' (w.notify method params) (w'.notify method params) :=
  (h.post _).abreast

theorem closeClient : Abreast o o' w.closeClient w'.closeClient := by
  unfold World.closeClient
  rw [h.client (r := Client.pending) fun _ _ => rfl]
  dsimp only
  split
  · exact h.updateClient fun _ _ => rfl
  · exact (h.clientLog ..).updateClient fun _ _ => rfl

/-! ## Answers to the peer -/

theorem respond (id result : Json) : Abreast o o' (w.respond id result) (w'.respond id result) :=
  (h.post _).abreast

theorem respondError (id : Json) (e : ResponseError) :
    Abreast o o' (w.respondError id e) (w'.respondError id e) :=
  (h.post _).abreast

theorem claimAnswer (n : Nat) (c : Context) :
    Agree o o' (w.claimAnswer n c) (w'.claimAnswer n c) := by
  unfold World.claimAnswer
  split
  · exact (h.clientLog ..).agree false
  · split
    · exact (h.clientLog ..).agree false
    · exact (h.updateClient fun _ _ => rfl).agree true

theorem takeCancelled (id : Json) : Agree o o' (w.takeCancelled id) (w'.takeCancelled id) := by
  refine ⟨h.client (r := fun c => (c.consumeCancelled id).1) fun c v => ?_,
    h.updateClient (f := fun c => (c.consumeCancelled id).2) fun c v => ?_⟩ <;>
  · unfold Client.consumeCancelled Client.isCancelled
    dsimp only
    split <;> rfl

theorem succeed (n : Nat) (value : Json) :
    Abreast o o' (w.succeed n value) (w'.succeed n value) := by
  unfold World.succeed
  rw [h.context?]
  cases w.client.context? n with
  | none => exact h
  | some c =>
    dsimp only
    refine (h.claimAnswer n c).onward fun claimed u u' hu => ?_
    cases claimed with
    | false => exact hu
    | true =>
      dsimp only
      refine (hu.takeCancelled c.id).onward fun cancelled u u' hu => ?_
      cases cancelled with
      | true => exact hu.respondError ..
      | false => exact hu.respond ..

theorem failWith (n : Nat) (error : Except Fault ResponseError) :
    Agree o o' (World.failWith n error w) (World.failWith n error w') := by
  unfold World.failWith
  rw [h.context?]
  cases w.client.context? n with
  | none => exact h.agree _
  | some c =>
    dsimp only
    refine (h.claimAnswer n c).onward fun claimed u u' hu => ?_
    cases claimed with
    | false => exact hu.agree _
    | true =>
      have htaken := (hu.takeCancelled c.id).abreast
      cases error with
      | ok e => exact (htaken.respondError ..).agree _
      | error f => exact htaken.agree _

theorem failAs (n : Nat) (code : ErrorCode) (message : String) :
    Abreast o o' (w.failAs n code message) (w'.failAs n code message) :=
  (h.failWith ..).abreast

/-! ## Reporting -/

theorem callHost (hr : run.Agrees o o') (kind : CallbackKind) (c : Callback Action)
    (outcome : Outcome) :
    Agree o o' (World.callHost run kind c outcome w) (World.callHost run kind c outcome w') :=
  hr _ _ _ (h.record _ rfl)

theorem callSubscriber (hr : run.Agrees o o') (notice : Notice) (s : Subscriber) :
    Agree o o' (World.callSubscriber run notice s w) (World.callSubscriber run notice s w') := by
  cases s with
  | host label =>
    simp only [World.callSubscriber, h.host]
    exact hr _ _ _ (h.record _ rfl)
  | terminal =>
    cases notice with
    | statusChanged old new => exact (h.record _ rfl).agree _
    | serverStarted _ => exact h.agree _

theorem tellSubscription (hr : run.Agrees o o') (notice : Notice) (s : Subscription) :
    Abreast o o' (World.tellSubscription run notice w s)
      (World.tellSubscription run notice w' s) := by
  unfold World.tellSubscription
  rw [h.assistant]
  split
  · exact (h.callSubscriber hr notice s.subscriber).tell
  · exact h

/-- Subscribers are told the same in the same order. -/
theorem tellSubscribers (hr : run.Agrees o o') (notice : Notice) :
    Abreast o o' (World.tellSubscribers run notice w) (World.tellSubscribers run notice w') := by
  unfold World.tellSubscribers
  rw [h.assistant]
  exact h.foldl (fun s u u' hu => hu.tellSubscription hr notice s) _

theorem changeStatus (hr : run.Agrees o o') (status : Status) :
    Abreast o o' (World.changeStatus run status w) (World.changeStatus run status w') := by
  unfold World.changeStatus
  rw [h.assistant]
  dsimp only
  split
  · exact h
  · exact ((h.updateAssistant _).signal _).tellSubscribers hr _

theorem reportAccount (hr : run.Agrees o o') (status : Json) :
    Abreast o o' (World.reportAccount run status w) (World.reportAccount run status w') :=
  h.changeStatus hr _

theorem reportActivity (hr : run.Agrees o o') (busy : Bool) :
    Abreast o o' (World.reportActivity run busy w) (World.reportActivity run busy w') :=
  h.changeStatus hr _

theorem reportIfIdle (hr : run.Agrees o o') :
    Abreast o o' (World.reportIfIdle run w) (World.reportIfIdle run w') := by
  unfold World.reportIfIdle
  rw [h.fetches]
  split
  · exact h.reportActivity hr false
  · exact h

theorem cancelFetch (hr : run.Agrees o o') (id : Json) :
    Agree o o' (World.cancelFetch run id w) (World.cancelFetch run id w') := by
  unfold World.cancelFetch
  cases id.toInteger with
  | error f => exact h.agree _
  | ok n =>
    dsimp only
    rw [h.fetches]
    split
    · exact ((h.updateFetches _).reportIfIdle hr).agree _
    · exact h.agree _

theorem cancelFetches (hr : run.Agrees o o') :
    Abreast o o' (World.cancelFetches run w) (World.cancelFetches run w') :=
  (h.updateFetches _).reportActivity hr false

theorem removeFetch (id : Nat) : Agree o o' (w.removeFetch id) (w'.removeFetch id) := by
  unfold World.removeFetch
  rw [h.fetches]
  exact (h.updateFetches _).agree _

theorem fetchFailed (hr : run.Agrees o o') (id : Nat) (f : Fault) :
    Abreast o o' (World.fetchFailed run id f w) (World.fetchFailed run id f w') :=
  ((h.removeFetch id).abreast.log (.fetchFailed id f)).reportIfIdle hr

theorem statusMessage (text : String) :
    Abreast o o' (w.statusMessage text) (w'.statusMessage text) := by
  unfold World.statusMessage
  rw [h.startup]
  split
  · next hlaunched => exact h.log (.status (h.isSome_startup ▸ hlaunched) text)
  · exact h.signal _

theorem finishStartup (code : Nat) : Abreast o o' (w.finishStartup code) (w'.finishStartup code) :=
  (((h.updateStartup _).notify ..).record _ rfl).closeClient

/-! ## Calls that fail -/

theorem reactToError (hr : run.Agrees o o') (f : Fault) (r : Reaction) :
    Agree o o' (World.reactToError run f r w) (World.reactToError run f r w') := by
  cases r with
  | host kind c => exact h.callHost hr kind c _
  | startup _ => exact ((h.log (.requestFailed f)).finishStartup 1).agree _

theorem continueWithError (hr : run.Agrees o o') (f : Fault) (k : Continuation) :
    Agree o o' (World.continueWithError run f k w) (World.continueWithError run f k w') := by
  cases k with
  | reaction r => exact h.reactToError hr f r
  | serverNotStarted => exact ((h.updateClient fun _ _ => rfl).statusMessage _).agree _
  | fetchFailed task => exact (h.fetchFailed hr task f).agree _
  | _ => exact h.agree _

theorem rejectCall (hr : run.Agrees o o') (id : Nat) (f : Fault) :
    Abreast o o' (World.rejectCall run id f w) (World.rejectCall run id f w') := by
  unfold World.rejectCall
  rw [h.call?]
  cases w.client.call? id with
  | none => exact h
  | some c =>
    dsimp only
    split
    · exact h
    · exact (h.updateClient fun _ _ => rfl).foldl
        (fun k u u' hu => (hu.continueWithError hr f k).callBack) _

/-! ## Making requests -/

/-- A request has the same number, the same waiting callbacks and the same fate on both sides. -/
theorem request (hr : run.Agrees o o') (kind : CallKind) (method params : Json)
    (onResult onError : List Continuation) (treatment : Treatment) :
    Agree o o' (World.request run kind method params onResult onError treatment w)
      (World.request run kind method params onResult onError treatment w') := by
  unfold World.request
  rw [h.client (r := Client.nextId) fun _ _ => rfl]
  dsimp only
  have hadded := h.updateClient (f := Client.addCall
    (.start w.client.nextId method.textOrEmpty kind onResult onError) treatment) fun _ _ => rfl
  refine (hadded.send hr _).onward fun sent u u' hu => ?_
  cases sent with
  | true => exact hu.agree _
  | false => exact ((hu.updateClient fun _ _ => rfl).rejectCall hr _ _).agree _

theorem cancelCall (id : Nat) : Agree o o' (World.cancelCall id w) (World.cancelCall id w') := by
  unfold World.cancelCall
  rw [h.call?]
  cases w.client.call? id with
  | none => exact h.agree _
  | some c =>
    dsimp only
    split
    · exact h.agree _
    · exact ((h.updateClient fun _ _ => rfl).notify ..).agree _

theorem cancelRequest (id : Json) :
    Agree o o' (World.cancelRequest id w) (World.cancelRequest id w') := by
  unfold World.cancelRequest
  cases id.toInteger with
  | error f => exact h.agree _
  | ok n =>
    dsimp only
    rw [h.client (r := Client.pendingFor? (.int n)) fun _ _ => rfl]
    cases w.client.pendingFor? (.int n) with
    | none => exact h.agree _
    | some p => exact h.cancelCall p.id

/-! ## Notifications about documents -/

theorem didOpen (uri languageId version text : Json) :
    Agree o o' (World.didOpen uri languageId version text w)
      (World.didOpen uri languageId version text w') := by
  unfold World.didOpen
  cases version.toInteger with
  | error f => exact h.agree _
  | ok version => exact (h.notify ..).agree _

theorem didChange (uri version changes : Json) :
    Agree o o' (World.didChange uri version changes w)
      (World.didChange uri version changes w') := by
  unfold World.didChange
  cases version.toInteger <;> cases changes.items
  case ok.ok => exact (h.notify ..).agree _
  all_goals exact h.agree _

theorem didClose (uri : Json) : Abreast o o' (w.didClose uri) (w'.didClose uri) := h.notify ..

theorem didChangeFolders (added removed : Json) :
    Agree o o' (World.didChangeFolders added removed w)
      (World.didChangeFolders added removed w') := by
  unfold World.didChangeFolders
  cases added.itemsOrNone <;> cases removed.itemsOrNone
  case ok.ok => exact (h.notify ..).agree _
  all_goals exact h.agree _

/-! ## Requests of the assistant -/

theorem getVersion (hr : run.Agrees o o') (onResult onError : List Continuation) :
    Agree o o' (World.getVersion run onResult onError w)
      (World.getVersion run onResult onError w') :=
  h.request hr ..

theorem checkStatus (hr : run.Agrees o o') (localOnly : Json)
    (onResult onError : List Continuation) :
    Agree o o' (World.checkStatus run localOnly onResult onError w)
      (World.checkStatus run localOnly onResult onError w') :=
  h.request hr ..

theorem signIn (hr : run.Agrees o o') (onResult onError : List Continuation) :
    Agree o o' (World.signIn run onResult onError w) (World.signIn run onResult onError w') :=
  h.request hr ..

theorem confirmSignIn (hr : run.Agrees o o') (code : Json)
    (onResult onError : List Continuation) :
    Agree o o' (World.confirmSignIn run code onResult onError w)
      (World.confirmSignIn run code onResult onError w') :=
  h.request hr ..

theorem signOut (hr : run.Agrees o o') (onResult onError : List Continuation) :
    Agree o o' (World.signOut run onResult onError w) (World.signOut run onResult onError w') :=
  h.request hr ..

theorem setEditorInfo (hr : run.Agrees o o') (editor plugin : Json)
    (onResult onError : List Continuation) :
    Agree o o' (World.setEditorInfo run editor plugin onResult onError w)
      (World.setEditorInfo run editor plugin onResult onError w') := by
  unfold World.setEditorInfo
  cases infoOf editor <;> cases infoOf plugin
  case ok.ok => exact (h.request hr ..).map Except.ok
  all_goals exact h.agree _

theorem completionParams (options : CompletionOptions) :
    World.completionParams options w' = World.completionParams options w := by
  unfold World.completionParams
  rw [h.assistant]

theorem getCompletions (hr : run.Agrees o o') (options : CompletionOptions) (cycling : Bool)
    (onResult onError : List Continuation) :
    Agree o o' (World.getCompletions run options cycling onResult onError w)
      (World.getCompletions run options cycling onResult onError w') := by
  unfold World.getCompletions
  rw [h.completionParams]
  cases World.completionParams options w with
  | error f => exact h.agree _
  | ok params => exact (h.request hr ..).map Except.ok

theorem startFetch (hr : run.Agrees o o') (position : UncheckedPosition) (sink : CompletionSink) :
    Agree o o' (World.startFetch run position sink w)
      (World.startFetch run position sink w') := by
  unfold World.startFetch
  dsimp only
  rw [h.fetches]
  refine ((h.updateFetches _).reportActivity hr true).onward fun u u' hu => ?_
  rw [hu.fetches]
  cases relativePath u.fetches with
  | error f => exact hu.agree _
  | ok relative =>
    dsimp only
    refine (hu.getCompletions hr ..).onward fun a u u' hu => ?_
    cases a with
    | error f => exact hu.agree _
    | ok _ => exact hu.agree _

theorem openAtZero (uri languageId text : Json) :
    Abreast o o' (w.openAtZero uri languageId text) (w'.openAtZero uri languageId text) :=
  ((h.updateAssistant _).didOpen ..).abreast

theorem changeVersion (uri changes : Json) :
    Agree o o' (World.changeVersion uri changes w) (World.changeVersion uri changes w') := by
  unfold World.changeVersion
  refine (h.updateAssistant fun a => { a with version := a.version + 1 }).onward
    fun u u' hu => ?_
  dsimp only
  rw [hu.assistant]
  refine (hu.didChange ..).onward fun a v v' hv => ?_
  cases a with
  | error f => exact hv.agree _
  | ok _ => exact hv.agree _

/-! ## Starting -/

theorem serverStarted (hr : run.Agrees o o') (result : Json) :
    Abreast o o' (World.serverStarted run result w) (World.serverStarted run result w') := by
  unfold World.serverStarted
  dsimp only
  refine Abreast.onward (h.updateClient (f := fun c => { c with
    capabilities := _, isInitialized := true }) fun _ _ => rfl) fun u u' hu => ?_
  rw [hu.hasAssistant]
  split
  · exact (hu.signal _).tellSubscribers hr _
  · exact hu.signal _

theorem sendInitialized : Abreast o o' w.sendInitialized w'.sendInitialized := h.notify ..

theorem afterStart (hr : run.Agrees o o') (hs : Handshake) :
    Agree o o' (World.afterStart run hs w) (World.afterStart run hs w') :=
  (h.sendInitialized.setEditorInfo hr ..).map _

theorem afterEditorInfo (hr : run.Agrees o o') (hs : Handshake) :
    Abreast o o' (World.afterEditorInfo run hs w) (World.afterEditorInfo run hs w') :=
  (h.getVersion hr ..).abreast

theorem print (line : String) : Abreast o o' (w.print line) (w'.print line) := h.record _ rfl

theorem continueStartup (hr : run.Agrees o o') (answer : Json) (step : StartupStep) :
    Abreast o o' (World.continueStartup run answer step w)
      (World.continueStartup run answer step w') := by
  cases step with
  | ready => exact (((h.updateStartup _).print _).checkStatus hr ..).abreast
  | account =>
    simp only [World.continueStartup, (h.print _).startup]
    split
    · exact ((h.print _).signIn hr ..).abreast
    · exact (h.print _).finishStartup 0
  | signIn =>
    unfold World.continueStartup
    dsimp only
    split
    · exact (h.print _).finishStartup 0
    · exact ((h.print _).confirmSignIn hr ..).abreast
  | signedIn => exact (h.print _).finishStartup 0
  | failed => exact h

end Abreast

end GhostText.World
