import GhostText.Host.Start
import GhostText.Proofs.Run.Answering

/-!
# Every action is a row of steps

Whatever a host does within its conduct, by itself or from inside its scripts, leads from world to
world by steps. The induction is over how deeply scripts make one another run.
-/

namespace GhostText

variable {k : Regime}

namespace World

variable {run : Runner} (hr : run.Steady k) {w : World}

/-! ## What an operation answers -/

theorem leads_done {r : Except Fault Unit × World} (h : Leads k w r.2) : Leads k w (done r).2 := h

theorem leads_answerNumber {r : Except Fault Nat × World} (h : Leads k w r.2) :
    Leads k w (answerNumber r).2 := h

theorem leads_answerFlag {r : Bool × World} (h : Leads k w r.2) : Leads k w (answerFlag r).2 := h

theorem leads_answerCall {r : Nat × World} (h : Leads k w r.2) : Leads k w (answerCall r).2 := by
  unfold answerCall
  split <;> exact h

theorem leads_answerCallOf {r : Except Fault Nat × World} (h : Leads k w r.2) :
    Leads k w (answerCallOf r).2 := by
  obtain ⟨_ | _, w'⟩ := r
  · exact h
  · exact leads_answerCall h

theorem leads_answerSession (n : Nat) {w' : World} (h : Leads k w w') :
    Leads k w (answerSession n w').2 := by
  unfold answerSession
  split <;> exact h

theorem leads_answerConfig {w' : World} (h : Leads k w w') : Leads k w (answerConfig w').2 := by
  unfold answerConfig
  split <;> exact h

/-! ## Handlers -/

theorem mem_of_mem_enter {α : Type} {method : String} {a : α} {entries : List (String × α)}
    {e : String × α} (h : e ∈ Handlers.enter method a entries) : e = (method, a) ∨ e ∈ entries := by
  simp only [Handlers.enter, List.mem_cons] at h
  exact h.imp_right fun h => (List.mem_filter.1 h).1

/-- A handler that is put in leaves the scripts of the others. -/
theorem handles_setRequest {k : Conduct} {h : Handlers} (hh : k.Handles h) (method : String)
    {spec : HandlerSpec Action} (hs : k.AllowsAll spec.script) :
    k.Handles (h.setRequest method spec).1 := by
  refine ⟨fun m kind script hm => ?_, by cases spec <;> exact hh.notifications⟩
  cases spec <;> obtain he | he := mem_of_mem_enter hm <;>
    first
    | exact hh.requests m kind script he
    | (simp only [Prod.mk.injEq, RequestEntry.user.injEq, Option.some.injEq, reduceCtorEq,
        and_false] at he
       try exact he.2.2 ▸ hs)

theorem handles_setNotification {k : Conduct} {h : Handlers} (hh : k.Handles h) (method : String)
    {spec : HandlerSpec Action} (hs : k.AllowsAll spec.script) :
    k.Handles (h.setNotification method spec) := by
  refine ⟨hh.requests, fun m script hm => ?_⟩
  cases spec <;> obtain he | he := mem_of_mem_enter hm <;>
    first
    | exact hh.notifications m script he
    | (simp only [Prod.mk.injEq, NotificationEntry.script.injEq, reduceCtorEq, and_false] at he
       try exact he.2 ▸ hs)

theorem handles_remove {k : Conduct} {h : Handlers} (hh : k.Handles h) (method : String) :
    k.Handles (h.remove method) :=
  ⟨fun m kind script hm => hh.requests m kind script (List.mem_filter.1 hm).1,
    fun m script hm => hh.notifications m script (List.mem_filter.1 hm).1⟩

/-- A handler for requests is entered, and before that a warning may be logged. -/
theorem handleRequests_eq (method : String) (spec : HandlerSpec Action) (w : World) :
    ∃ w₁, w.AddsAsides w₁ ∧ w.handleRequests method spec = w₁.updateClient fun c =>
      { c with handlers := (w.client.handlers.setRequest method spec).1 } := by
  unfold handleRequests
  dsimp only
  split
  · exact ⟨w, .refl w, rfl⟩
  · exact ⟨_, addsAsides_clientLog .., rfl⟩

theorem leads_handleRequests (method : String) {spec : HandlerSpec Action}
    (hs : k.AllowsAll spec.script) (w : World) : Leads k w (w.handleRequests method spec) := by
  refine .of_sound fun hsound => ?_
  obtain ⟨w₁, hlogged, he⟩ := handleRequests_eq method spec w
  rw [he]
  exact hlogged.leads.trans (.single (.client (.handlers
    (handles_setRequest hsound.bound.handlers method hs))) rfl rfl)

theorem leads_handleNotifications (method : String) {spec : HandlerSpec Action}
    (hs : k.AllowsAll spec.script) (w : World) : Leads k w (w.handleNotifications method spec) :=
  .of_sound fun hsound => .single (.client (.handlers
    (handles_setNotification hsound.bound.handlers method hs))) rfl rfl

theorem leads_removeHandler (method : String) (w : World) : Leads k w
    (w.updateClient fun c => { c with handlers := c.handlers.remove method }) :=
  .of_sound fun hsound => .single (.client (.handlers
    (handles_remove hsound.bound.handlers method))) rfl rfl

/-! ## What the host writes itself -/

section Writing

variable {a : Action} (ha : k.does a) (hw : a.writesDocument)

include ha hw

theorem leads_ownNotify {method : String} (hm : reportMethods.contains method = false)
    (params : Json) (w : World) : Leads k w (w.notify method params) :=
  leads_post ⟨fun _ => ⟨a, ha, hw⟩, fun ht => by simp [isReport_notification hm] at ht,
    fun hk => absurd (Action.turns_of_writesDocument hw) (by simp [hk a ha])⟩ w

theorem leads_didOpen (uri languageId version text : Json) (w : World) :
    Leads k w (didOpen uri languageId version text w).2 := by
  unfold didOpen
  split
  · exact .refl w
  · exact leads_ownNotify ha hw rfl ..

/-- The host may tell the server of a change itself. -/
theorem leads_didChange (uri version changes : Json) (w : World) :
    Leads k w (didChange uri version changes w).2 := by
  unfold didChange
  split
  · exact .refl w
  · exact .refl w
  · exact leads_ownNotify ha hw rfl ..

theorem leads_openAtZero (uri languageId text : Json) (w : World) :
    Leads k w (w.openAtZero uri languageId text) :=
  (Leads.single (.version 0 ha hw) rfl rfl).trans (leads_didOpen ha hw ..)

theorem leads_changeVersion (uri changes : Json) (w : World) :
    Leads k w (changeVersion uri changes w).2 := by
  have hversion : Leads k w
      (w.updateAssistant fun a => { a with version := w.assistant.version + 1 }) :=
    .single (.version _ ha hw) rfl rfl
  rw [snd_changeVersion]
  exact hversion.trans (leads_didChange ha hw ..)

end Writing

/-- A notification of the host is one it may send. -/
theorem leads_hostNotify {method params : Json} (ha : k.does (.client (.notify method params)))
    (w : World) : Leads k w (w.notify method.textOrEmpty params) := by
  refine leads_post ⟨fun ht => ⟨_, ha, ?_⟩, fun ht => k.engages_of _ ha ?_,
    fun hk => documentNotice?_notification (hk _ ha) params⟩ w
  · by_contra hm
    simp only [Action.writesDocument, Bool.not_eq_true] at hm
    simp [tellsOfDocument_notification hm] at ht
  · by_contra hm
    simp only [Action.engages, Bool.not_eq_true] at hm
    rw [isReport_notification hm] at ht
    cases ht

/-- A message of the host's own. -/
theorem sends_own {a : Action} (ha : k.does a) (hw : a.writesDocument) (he : a.engages)
    (payload : Json) : k.Sends payload :=
  ⟨fun _ => ⟨a, ha, hw⟩, fun _ => k.engages_of a ha he,
    fun hk => absurd (Action.turns_of_writesDocument hw) (by simp [hk a ha])⟩

/-! ## The actions of each part -/

/-- The callbacks of an action may wait for the next call. -/
theorem awaitsAll_next {a : Action} (hf : k.Fits w.client.nextId a) {r : Reactions Action}
    (hr : a.registered = (.next, r.callbacks)) :
    k.AwaitsAll w.client.nextId (onResult r ++ onError r) :=
  Conduct.awaitsAll_reactions fun c hc => hf.callbacks (by rw [hr]; exact hc) (by rw [hr]; rfl)

include hr

theorem leads_performContext (n : Nat) {a : ContextAction}
    (hf : k.Fits w.client.nextId (.context a)) : Leads k w (performContext run n a w).2 := by
  cases a with
  | succeed value => exact leads_succeed ..
  | reject code message data => exact leads_failWith ..
  | suppressLogging => exact leads_suppressLogging ..
  | defer =>
    have hdefer : Leads k w (w.updateHost fun h => { h with deferred := h.deferred ++ [n] }) :=
      leads_updateHost rfl rfl
    exact hdefer
  | log level text => exact leads_clientLog ..
  | send m => exact leads_send hr (sends_own hf.does rfl rfl _) w
  | view =>
    unfold performContext
    dsimp only
    split
    · exact .refl w
    · exact .note rfl

theorem leads_performClient {a : ClientAction Action} (hf : k.Fits w.client.nextId (.client a)) :
    Leads k w (performClient run a w).2 := by
  cases a with
  | request kind method params r t =>
    exact leads_answerCall (leads_request hr _ _ _
      ⟨awaitsAll_next hf rfl, by cases t <;> simp [treatmentOf],
        fun hm => k.asks_of _ hf.does (by simpa [Action.asks] using hm), .inl (plain_reactions r)⟩)
  | notify method params => exact leads_hostNotify hf.does w
  | send m => exact leads_answerFlag (leads_send hr (sends_own hf.does rfl rfl _) w)
  | cancelRequest id => exact leads_done (leads_cancelRequest id w)
  | cancelCall id => exact leads_done (leads_cancelCall id w)
  | showCall id => exact leads_answerCall (.refl w)
  | andThen id r =>
    exact leads_answerCall (leads_andThen hr
      (Conduct.awaitsAll_reactions fun c hc => hf.callbacks hc rfl) (plain_reactions r) w)
  | receive bytes =>
    exact leads_receive hr ⟨k.asks_of _ hf.does rfl, k.engages_of _ hf.does rfl⟩ bytes w
  | handleRequests method h =>
    exact leads_handleRequests _ (hf.clientScript List.mem_cons_self) w
  | handleNotifications method h =>
    exact leads_handleNotifications _ (hf.clientScript List.mem_cons_self) w
  | removeHandler method => exact leads_removeHandler _ w
  | acceptWrites accept =>
    exact leads_of_turns hf.does rfl
      (.single (.transport (.accept accept hf.does)) rfl ⟨[], (List.append_nil _).symm⟩ rfl)
  | startServer params r =>
    exact leads_answerCall
      (leads_startServer hr _ (awaitsAll_next hf rfl) (plain_reactions r))
  | shutdown r =>
    exact leads_answerCall
      (leads_request hr _ _ _
        (.ofPlain (awaitsAll_next hf rfl) (plain_reactions r) (by decide) (by simp)))
  | sendInitialized => exact leads_notify rfl ..
  | traceAt level => exact leads_notify rfl ..
  | exit => exact leads_notify rfl ..
  | openDocument uri languageId version text =>
    exact leads_done (leads_didOpen hf.does rfl ..)
  | changeDocument uri version changes => exact leads_done (leads_didChange hf.does rfl ..)
  | closeDocument uri => exact leads_of_turns hf.does rfl (goes_didClose ..)
  | changeFolders added removed => exact leads_done (leads_didChangeFolders ..)
  | close => exact leads_closeClient w
  | stopTransport => exact (Leads.note rfl).trans (leads_closeClient _)
  | transportStatus text => exact leads_statusMessage ..
  | verbosity level => exact leads_client rfl rfl rfl (.aside rfl rfl rfl)
  | logTraffic enabled => exact leads_client rfl rfl rfl (.aside rfl rfl rfl)
  | resolve _ => exact .refl w
  | capabilities => exact .refl w
  | registrations => exact .refl w

omit hr in
theorem assistantStep_subscribe (t : Topic) (s : Subscriber) (a : Assistant) :
    AssistantStep a (a.subscribe t s) := by
  unfold Assistant.subscribe
  split
  · exact .subscriptions a.subscriptions a.nextNumber
  · exact .subscriptions ..

omit hr in
theorem leads_nameSubscriber (label : String) {script : Script} (hs : k.AllowsAll script)
    (hk : k.Modest → script = []) (w : World) : Leads k w (w.nameSubscriber label script) := by
  refine .of_sound fun hsound => .step
    (.host (forall_nameSubscriber hsound.bound.subscribers hs label) (Or.inl ?_)) rfl rfl
    fun _ hm c h => ⟨c, h.updateHost (forall_nameSubscriber h.inert (hk hm) label),
      [], (List.append_nil _).symm, .inr rfl⟩
  dsimp only
  split <;> rfl

theorem leads_performAssistant {a : AssistantAction Action}
    (hf : k.Fits w.client.nextId (.assistant a)) : Leads k w (performAssistant run a w).2 := by
  cases a with
  | version r =>
    exact leads_answerCall (leads_getVersion hr (awaitsAll_next hf rfl) (plain_reactions r))
  | checkStatus localOnly r =>
    exact leads_answerCall (leads_checkStatus hr (awaitsAll_next hf rfl) (plain_reactions r) _)
  | signIn r => exact leads_answerCall (leads_signIn hr (awaitsAll_next hf rfl) (plain_reactions r))
  | confirmSignIn code r =>
    exact leads_answerCall (leads_confirmSignIn hr (awaitsAll_next hf rfl) (plain_reactions r) _)
  | signOut r =>
    exact leads_answerCall (leads_signOut hr (awaitsAll_next hf rfl) (plain_reactions r))
  | editorInfo editor plugin r =>
    exact leads_answerCallOf (leads_setEditorInfo hr (awaitsAll_next hf rfl) (plain_reactions r) ..)
  | completions options cycling r =>
    exact leads_answerCallOf
      (leads_getCompletions hr options ⟨awaitsAll_next hf rfl, nofun,
        fun _ => k.asks_of _ hf.does rfl, .inl (plain_reactions r)⟩)
  | completionParams options => exact .refl w
  | notifyShown uuid => exact leads_report rfl (k.engages_of _ hf.does rfl) ..
  | notifyAccepted uuid => exact leads_report rfl (k.engages_of _ hf.does rfl) ..
  | notifyRejected uuids =>
    unfold performAssistant
    dsimp only
    split
    · exact .refl w
    · exact leads_report rfl (k.engages_of _ hf.does rfl) ..
  | accountStatus status => exact leads_reportAccount hr ..
  | requestActivity busy => exact leads_reportActivity hr ..
  | subscribe event label script =>
    have hname : Leads k w (w.nameSubscriber label script) :=
      leads_nameSubscriber label (hf.assistantScript List.mem_cons_self)
        (fun hk => by simpa [Action.meddles] using hk _ hf.does) w
    unfold performAssistant
    dsimp only
    split
    · exact hname
    · exact hname.trans (.single (.assistant (assistantStep_subscribe ..)) rfl rfl)
  | unsubscribe event label =>
    have hname : Leads k w (w.nameSubscriber label []) :=
      leads_nameSubscriber label (List.forall_mem_nil _) (fun _ => rfl) w
    unfold performAssistant
    dsimp only
    split
    · exact hname
    · exact hname.trans (.single (.assistant (.subscriptions ..)) rfl rfl)
  | handshake folder editor plugin trace processId onReady onError =>
    refine leads_answerCallOf (leads_handshake hr _ _ _ ?_ w)
    intro x hx id
    simp only [Option.toList_map, List.mem_append, List.mem_map] at hx
    rcases hx with ⟨c, hc, rfl⟩ | ⟨c, hc, rfl⟩
    · exact hf.callbacks (List.mem_append_left _ hc) trivial
    · exact hf.callbacks (List.mem_append_right _ hc) trivial
  | openDocument uri languageId text => exact leads_openAtZero hf.does rfl ..
  | changeDocument uri text changes =>
    exact leads_answerNumber (leads_changeVersion hf.does rfl ..)

theorem leads_performTask {a : TaskAction Action} (hf : k.Fits w.client.nextId (.task a)) :
    Leads k w (performTask run a w).2 := by
  cases a with
  | start position c =>
    refine leads_answerNumber
      (leads_startFetch hr (k.asks_of _ hf.does rfl) position (fun task id => ?_)
        (.inr ⟨_, _, hf.does⟩) w)
    cases c with
    | none => trivial
    | some c => exact hf.callbacks (List.mem_singleton.2 rfl) trivial
  | cancel id => exact leads_done (leads_cancelFetch hr id w)
  | cancelAll => exact leads_cancelFetches hr w
  | configure s =>
    have hgoes : Goes k w (w.updateFetches (withSettings s)) :=
      .single (.fetches (.configure s hf.does)) rfl ⟨[], (List.append_nil _).symm⟩ rfl
    cases hactive : s.activeFile with
    | none =>
      have hfile : (withSettings s w.fetches).activeFile = w.fetches.activeFile := by
        rw [withSettings, hactive, Option.getD_none]
      exact ⟨hgoes, fun _ _ => .of_eq rfl hfile rfl⟩
    | some path => exact leads_of_turns hf.does (by rw [Action.turns, hactive]; rfl) hgoes

omit hr in
theorem leads_showSuggestion {completion : Json} {inline : Bool}
    (ha : k.does (.editor (.showSuggestion completion inline))) (c : Completion) (w : World) :
    Leads k w (w.showSuggestion c inline).2 := by
  have hdraw : Leads k w (w.updateCanvas fun _ => (w.canvas.display c inline).2) :=
    .meddle ha rfl (.editor (.draw _ ha rfl)) rfl rfl
  refine hdraw.trans (leads_updateHost
    (f := fun h => { h with artifacts := h.artifacts ++ [(w.canvas.display c inline).1] }) rfl rfl)

omit hr in
theorem leads_removeArtifact {index : Nat} (ha : k.does (.editor (.removeArtifact index)))
    (w : World) : Leads k w (w.removeArtifact index) := by
  unfold removeArtifact
  split
  · exact .refl w
  · next a _ =>
    have hdraw : Leads k w (w.updateCanvas fun _ => (a.remove w.canvas).2) :=
      .meddle ha rfl (.editor (.draw _ ha rfl)) rfl rfl
    exact hdraw.trans (leads_updateHost rfl rfl)

theorem leads_performEditor {a : EditorAction} (hf : k.Fits w.client.nextId (.editor a)) :
    Leads k w (performEditor run a w).2 := by
  cases a with
  | type text => exact leads_insertText hr ..
  | insert text origin => exact leads_insertText hr ..
  | replace range text origin => exact leads_done (leads_replaceRange hr ..)
  | move p => exact leads_done (leads_moveCaret hr ..)
  | key key => exact leads_pressKey hr ..
  | toggleMode entering => exact leads_toggleMode ..
  | undo => exact leads_undo hr w
  | focus focused => exact .single (.editor (.focus focused)) rfl rfl
  | filePath path => exact .single (.editor (.filePath _)) rfl rfl
  | snapshot =>
    have hkeep : Leads k w
        (w.updateHost fun h => { h with snapshots := h.snapshots ++ [w.buffer.history] }) :=
      leads_updateHost rfl rfl
    exact hkeep
  | restore index => exact .meddle hf.does rfl (.editor (.draw _ hf.does rfl)) rfl rfl
  | panel text => exact .meddle hf.does rfl (.editor (.draw _ hf.does rfl)) rfl rfl
  | blockSignals blocked => exact .meddle hf.does rfl (.editor (.block blocked hf.does)) rfl rfl
  | showSuggestion completion inline =>
    unfold performEditor
    dsimp only
    split
    · exact .refl w
    · exact leads_showSuggestion hf.does ..
  | findArtifact index => exact .refl w
  | removeArtifact index => exact leads_removeArtifact hf.does w

theorem leads_performSession {a : SessionAction} (ha : k.does (.session a)) (w : World) :
    Leads k w (performSession run a w).2 := by
  cases a with
  | create completion inline acceptKey withTasks =>
    unfold performSession
    dsimp only
    split
    · exact .refl w
    · next c _ =>
      exact leads_answerSession _ (leads_session (.propose rfl rfl ha) (Closes.propose rfl w)
        fun _ hk => by simpa [Action.meddles] using hk _ ha)
  | view n => exact leads_answerSession n (.refl w)
  | start n =>
    have hstart := leads_startOnce ha w
    unfold performSession
    dsimp only
    generalize startOnce n w = r at hstart ⊢
    obtain ⟨_ | _, w₁⟩ := r
    · exact hstart
    · exact leads_answerSession n hstart
  | accept n => exact leads_answerFlag (leads_acceptSession hr n w)
  | reject n reason => exact leads_answerFlag (leads_rejectSession ..)

theorem leads_performController {a : ControllerAction}
    (hf : k.Fits w.client.nextId (.controller a)) : Leads k w (performController run a w).2 := by
  cases a with
  | openDocument => exact leads_done (leads_of_turns hf.does rfl (goes_openDocument w))
  | switchFile newPath oldPath =>
    exact leads_done (leads_of_turns hf.does rfl (goes_switchFile ..))
  | switchFolder newFolder oldFolder => exact leads_done (leads_switchFolder ..)
  | accept => exact leads_answerFlag (leads_acceptCurrent hr w)
  | reject reason => exact leads_answerFlag (leads_rejectCurrent ..)
  | present completion =>
    unfold performController
    dsimp only
    split
    · exact .refl w
    · exact leads_present (k.engages_of _ hf.does rfl) ..
  | flush => exact leads_done (leads_flush hr (k.asks_of _ hf.does rfl) w)
  | requestCompletion =>
    exact leads_answerNumber (leads_requestCompletion hr (k.asks_of _ hf.does rfl) w)
  | updateSettings settings =>
    have hupdate := leads_updateSettings hr hf.does rfl settings w
    unfold performController
    dsimp only
    generalize updateSettings run settings w = r at hupdate ⊢
    obtain ⟨_ | _, w₁⟩ := r
    · exact hupdate
    · exact leads_answerConfig hupdate
  | config => exact leads_answerConfig (.refl w)
  | bindSettings initial => exact leads_done (leads_bindSettings hr hf.does rfl initial w)
  | storeValue key value => exact leads_storeValue hr hf.does rfl key value w
  | unbind => exact leads_unbind w
  | shutdown => exact leads_shutdownController hr w
  | tick => exact leads_tick hr (k.asks_of _ hf.does rfl) w

/-! ## Actions and scripts -/

/-- An action is a row of steps, by induction over the actions within it. -/
theorem leads_perform (context : Option Nat) (a : Action) {w : World}
    (hf : k.Fits w.client.nextId a) : Leads k w (perform run context a w).2 :=
  match a with
  | .within _ b => leads_perform _ b (hf.within.fits _)
  | .raise _ => .refl w
  | .context _ =>
    match context with
    | none => .refl w
    | some n => leads_performContext hr n hf
  | .client _ => leads_performClient hr hf
  | .assistant _ => leads_performAssistant hr hf
  | .task _ => leads_performTask hr hf
  | .editor _ => leads_performEditor hr hf
  | .session _ => leads_performSession hr hf.does w
  | .controller _ => leads_performController hr hf

theorem leads_performAll (context : Option Nat) {s : Script} (hs : k.AllowsAll s) (w : World) :
    Leads k w (performAll run context s w).2 :=
  performAll_preserves (.refl w) fun w₁ h a ha =>
    h.trans (leads_perform hr context a ((hs a ha).fits w₁.client.nextId))

omit hr in
/-- However deeply scripts make one another run, they make only steps. -/
theorem steady_runTo (depth : Nat) : (runTo depth).Steady k := by
  induction depth with
  | zero => exact ⟨fun i w _ => .refl w, fun w => rfl⟩
  | succ depth ih =>
    refine ⟨fun i w hi => ?_, fun w => rfl⟩
    cases i with
    | script context actions => exact leads_performAll ih context hi w
    | deliver bytes => exact leads_receive ih hi bytes w

omit hr in
/-- One action of the host leads from world to world by steps. -/
theorem leads_act {a : Action} {w : World} (hf : k.Fits w.client.nextId a) :
    Leads k w (act a w).2 :=
  leads_perform (steady_runTo depthLimit) none a hf

end World

end GhostText
