import GhostText.Proofs.Fetch.Lifetime

/-!
# Everything a host does tends to its fetches

A message of the peer settles a call, is handed to a handler, or concerns neither table, and so each
action of the host keeps the tables in step, whatever its scripts do meanwhile. The induction is
over how deeply scripts make one another run, as it is for steps.
-/

namespace GhostText.World

variable {k : Conduct} {o : Prop} {run : Runner} {w w' : World}

/-! ## The handlers and the subscribers -/

theorem statusHandled_setRequest {h : Handlers} (hs : h.StatusHandled) (method : String)
    (spec : HandlerSpec Action) : (h.setRequest method spec).1.StatusHandled := by
  cases spec <;> exact hs

theorem statusHandled_setNotification {h : Handlers} (hs : h.StatusHandled) (method : String)
    (spec : HandlerSpec Action) : (h.setNotification method spec).StatusHandled := by
  intro m hm
  rcases mem_of_mem_enter hm with he | he
  · cases spec <;> simp at he
  · exact hs m he

theorem statusHandled_remove {h : Handlers} (hs : h.StatusHandled) (method : String) :
    (h.remove method).StatusHandled :=
  fun m hm => hs m (List.mem_filter.1 hm).1

/-- Handlers may be changed as long as the status stays handled. -/
theorem tends_handlers (h : w.Fetching k) {hs : Handlers} (hallows : k.Handles hs)
    (hstatus : hs.StatusHandled) :
    Tends k o w (w.updateClient fun c => { c with handlers := hs }) where
  toMinds := .of_tables ⟨⟨h.ledger.ids, h.ledger.waiting, h.ledger.ordered⟩, h.asks, h.treatments,
    hallows, hstatus, h.subscribers, h.numbered⟩ rfl rfl rfl (List.prefix_refl _)
  status _ ha := ha

theorem tends_handleRequests (h : w.Fetching k) (method : String) {spec : HandlerSpec Action}
    (hs : k.AllowsAll spec.script) : Tends k o w (w.handleRequests method spec) := by
  obtain ⟨w₁, hasides, he⟩ := handleRequests_eq method spec w
  have hlogged := hasides.idles.tends (o := o) h
  rw [he]
  exact hlogged.trans (tends_handlers hlogged.fetching (handles_setRequest h.handlers method hs)
    (statusHandled_setRequest h.statusHandler method spec))

theorem tends_nameSubscriber (h : w.Fetching k) (label : String) {s : Script}
    (hs : k.AllowsAll s) : Tends k o w (w.nameSubscriber label s) where
  toMinds := .of_tables
    { h with subscribers := forall_nameSubscriber h.subscribers hs label }
    rfl rfl rfl (List.prefix_refl _)
  status _ ha := ha

/-! ## The end of a connection -/

/-- What waits is forgotten; the requests stay unanswered. -/
theorem tends_closeClient (h : w.Fetching k) (hs : ¬ o) :
    Tends k o w w.closeClient := by
  have hclose : ∀ w : World, w.Fetching k → Tends k o w (w.updateClient Client.disconnect) :=
    fun w h =>
    { fetching := h.congr rfl (List.nil_sublist _) rfl rfl rfl rfl
      events := List.prefix_refl _
      numbers := Nat.le_refl _
      lasting := fun _ ho => ho
      asked := fun _ _ _ ha => .inl ha
      remembers := fun hstays => absurd hstays hs
      typed := fun _ ht => ht
      started := fun _ _ _ hm => .inl hm
      status := fun _ ha => ha }
  obtain ⟨w₀, asides, he⟩ := closeClient_eq w
  have hbefore := asides.idles.tends (o := o) h
  exact he ▸ hbefore.trans (hclose w₀ hbefore.fetching)

section Running

variable (hr : run.Tends k o) (h : w.Fetching k)

include hr h

/-! ## Responses -/

/-- A response ends at most the fetch whose request it answers. -/
theorem tends_handleResponse (id result : Json) (error : Option ResponseError) :
    Tends k o w (handleResponse run id result error w) := by
  cases hp : w.client.pendingFor? id with
  | none => exact (handleResponse_of_none run hp result error).idles.tends h
  | some p =>
    obtain ⟨haccount, hfetch⟩ := h.treatments p (mem_of_pendingFor? hp)
    obtain ⟨w₁, he, ⟨w₀, asides, rfl⟩ | ⟨ht, -⟩⟩ := handleResponse_of_some run hp result error
    · have hbefore := asides.idles.tends (o := o) h
      rw [he]
      refine hbefore.trans
        (tends_settleBy hr hbefore.fetching p.id fun value hv task sink ha => ?_).1
      rcases hfetch with ht | hnone
      · exact Treatment.verdict_completions_ne result error value (ht ▸ hv)
      · exact hnone task sink (ha.congr asides.idles.calls.symm)
    · exact absurd ht haccount

/-! ## Requests and notifications of the peer -/

/-- A request of the peer ends no fetch of its own accord. -/
theorem tends_handleRequest (n : Nat) (id : Json) (method : String) (params : Json) :
    Tends k o w (handleRequest run n id method params w) := by
  obtain hreplies | ⟨kind, script, w₁, found, before, after⟩ :=
    handleRequest_cases run n id method params w
  · exact hreplies.idles.tends h
  · have hbefore := before.idles.tends (o := o) h
    have hran := hbefore.trans (hr (.script (some n) script) w₁
      (allows_request? (k := k.free) h.handlers found) hbefore.fetching)
    exact hran.trans (after.idles.tends hran.fetching)

theorem tends_handleNotification (n : Nat) (method : String) (params : Json) :
    Tends k o w (handleNotification run n method params w) := by
  obtain hreplies | ⟨script, w₁, found, before, after⟩ | ⟨found, s, he⟩ :=
    handleNotification_cases run n method params w
  · exact hreplies.idles.tends h
  · have hbefore := before.idles.tends (o := o) h
    have hran := hbefore.trans (hr (.script (some n) script) w₁
      (allows_notification? (k := k.free) h.handlers found) hbefore.fetching)
    exact hran.trans (after.idles.tends hran.fetching)
  · -- the server has given a status of its own
    obtain rfl := h.statusHandler method (mem_of_notification? found)
    have hminds := minds_changeStatus (o := o) hr h s
    have hnoted := (idles_record (.signalled (.notificationReceived statusMethod params)) _
      ).tends (o := o) hminds.fetching
    rw [he]
    refine ⟨hminds.trans hnoted.toMinds, fun hu => ?_⟩
    have hlast := hu (.signalled (.notificationReceived statusMethod params))
      (List.mem_append_right _ List.mem_cons_self)
    simp [Event.givesStatus] at hlast

/-! ## Messages -/

theorem tends_handleMessage (v : Json) (m : Message) :
    Tends k o w (handleMessage run v w m) := by
  cases m with
  | response id result error =>
    have hresponse := tends_handleResponse hr h id result error
    exact hresponse.trans ((addsAsides_logTraffic ..).idles.tends hresponse.fetching)
  | request id method params =>
    have hopen := (replies_openContext method id true w).idles.tends (o := o) h
    have hrequest := hopen.trans (tends_handleRequest hr hopen.fetching
      w.client.contexts.length id method params)
    exact hrequest.trans ((replies_logIncoming ..).idles.tends hrequest.fetching)
  | notification method params =>
    have hopen := (replies_openContext method .null false w).idles.tends (o := o) h
    have hnotified := hopen.trans (tends_handleNotification hr hopen.fetching
      w.client.contexts.length method params)
    exact hnotified.trans ((replies_logIncoming ..).idles.tends hnotified.fetching)

/-- A message tends to the fetches, whatever it is. -/
theorem tends_dispatch (b : Frame.Body) : Tends k o w (dispatch run w b) := by
  cases b with
  | malformed raw e => exact (idles_clientLog ..).tends h
  | value v =>
    unfold dispatch
    dsimp only
    split
    · exact (idles_clientLog ..).tends h
    · exact tends_handleMessage hr h v _

theorem tends_receive (bytes : List UInt8) : Tends k o w (receive run bytes w) := by
  rw [receive_eq run]
  have hfeed := (idles_feed bytes w).tends (o := o) h
  exact hfeed.trans (Tends.foldl (fun _ h b _ => tends_dispatch hr h b) hfeed.fetching)

/-! ## The requests of the assistant -/

section Vocabulary

variable {onResult onError : List Continuation} (ha : ∀ q ∈ onResult ++ onError, k.Answers q)

include ha

/-- A request that is no fetch leaves the fetches alone until it is answered. -/
theorem tends_ask (kind : CallKind) (method params : Json) {treatment : Treatment}
    (ht : treatment ≠ .account) :
    Tends k o w (request run kind method params onResult onError treatment w).2 :=
  (tends_request h kind hr params ⟨ht, .inr ha⟩).1

theorem tends_setEditorInfo (editor plugin : Json) :
    Tends k o w (setEditorInfo run editor plugin onResult onError w).2 := by
  unfold setEditorInfo
  split
  · exact .refl h
  · exact .refl h
  · exact tends_ask hr h ha _ _ _ nofun

end Vocabulary

end Running

/-! ## The actions of each part -/

theorem tends_answerCall {r : Nat × World} (h : Tends k o w r.2) :
    Tends k o w (answerCall r).2 := by
  unfold answerCall
  split <;> exact h

theorem tends_answerCallOf {r : Except Fault Nat × World} (h : Tends k o w r.2) :
    Tends k o w (answerCallOf r).2 := by
  obtain ⟨_ | _, w'⟩ := r
  · exact h
  · exact tends_answerCall h

/-- The callbacks of an action keep to the conduct. -/
theorem answers_reactions {next : Nat} {a : Action} (hf : k.Fits next a) {r : Reactions Action}
    (hr : a.registered = (.next, r.callbacks)) : ∀ q ∈ onResult r ++ onError r, k.Answers q := by
  have hscript : ∀ c ∈ r.callbacks, k.AllowsAll c.script := by
    intro c hc
    have hheeds : k.Heeds next c := hf.callbacks (by rw [hr]; exact hc) (by rw [hr]; rfl)
    exact hheeds.script
  intro q hq
  simp only [onResult, onError, hostContinuation, List.mem_append, List.mem_map] at hq
  simp only [Reactions.callbacks, List.mem_append] at hscript
  rcases hq with ⟨c, hc, rfl⟩ | ⟨c, hc, rfl⟩
  · exact ⟨_, c, rfl, hscript c (Or.inl hc)⟩
  · exact ⟨_, c, rfl, hscript c (Or.inr hc)⟩

theorem idles_updateHost {f : Host → Host} (hf : (f w.host).subscribers = w.host.subscribers) :
    w.Idles (w.updateHost f) :=
  ⟨rfl, rfl, rfl, hf, rfl, rfl, List.prefix_refl _⟩

theorem idles_updateAssistant {f : Assistant → Assistant}
    (hf : (f w.assistant).status = w.assistant.status) : w.Idles (w.updateAssistant f) :=
  ⟨rfl, rfl, rfl, rfl, rfl, hf, List.prefix_refl _⟩

theorem tends_configure (h : w.Fetching k) {s : FetchSettings} (hs : k.Typed → s.isTyped = true) :
    Tends k o w (w.updateFetches (withSettings s)) where
  fetching := h.congr rfl (List.Sublist.refl _) rfl rfl rfl rfl
  events := List.prefix_refl _
  numbers := Nat.le_refl _
  lasting _ ho := ⟨ho.started, ho.gone⟩
  asked _ _ _ ha := .inl ha
  remembers _ _ hm := hm
  typed hk ht := by
    have hgiven : ∀ (o : Option Json) (v : Json) (p : Json → Bool), o.all p = true → p v = true →
        p (o.getD v) = true := by
      rintro (_ | _) v p ho hv
      · exact hv
      · exact ho
    simp only [FetchSettings.isTyped, Bool.and_eq_true] at hs
    obtain ⟨⟨hfolder, hfile⟩, htab⟩ := hs hk
    exact ⟨hgiven _ _ _ hfolder ht.workspaceFolder, hgiven _ _ _ hfile ht.activeFile,
      hgiven _ _ _ htab ht.tabSize⟩
  started _ _ _ hm := .inl hm
  status _ ha := ha

section Running

variable (hk : k.Tends) (hstays : o → k.StaysOpen) (hr : run.Tends k o)
  (h : w.Fetching k)

include hr h

theorem tends_performContext (n : Nat) (a : ContextAction) :
    Tends k o w (performContext run n a w).2 := by
  obtain hreplies | rfl | ⟨m, rfl⟩ := performContext_cases run n a w
  · exact hreplies.idles.tends h
  · have hidle : w.Idles (w.updateHost fun h => { h with deferred := h.deferred ++ [n] }) :=
      idles_updateHost rfl
    exact hidle.tends h
  · exact tends_send hr h _

theorem tends_performTask {a : TaskAction Action} (hf : k.Fits w.client.nextId (.task a)) :
    Tends k o w (performTask run a w).2 := by
  cases a with
  | start position c =>
    refine tends_startFetch hr h (fun ht => ht _ hf.does) (?_ : k.Delivers (sinkOf c))
    cases c with
    | none => trivial
    | some c =>
      have hheeds : k.Heeds w.client.nextId c := hf.callbacks (List.mem_singleton.2 rfl) trivial
      exact hheeds.script
  | cancel id => exact tends_cancelFetch hr h id
  | cancelAll => exact tends_cancelFetches hr h
  | configure s => exact tends_configure h fun ht => ht _ hf.does

include hk

theorem tends_performAssistant {a : AssistantAction Action}
    (hf : k.Fits w.client.nextId (.assistant a)) :
    Tends k o w (performAssistant run a w).2 := by
  have htends := hk _ hf.does
  cases a with
  | version r => exact tends_answerCall (tends_ask hr h (answers_reactions hf rfl) _ _ _ nofun)
  | signIn r => exact tends_answerCall (tends_ask hr h (answers_reactions hf rfl) _ _ _ nofun)
  | editorInfo editor plugin r =>
    exact tends_answerCallOf (tends_setEditorInfo hr h (answers_reactions hf rfl) ..)
  | completions options cycling r =>
    exact tends_answerCallOf
      (tends_getCompletions hr h options ⟨nofun, .inr (answers_reactions hf rfl)⟩).1
  | completionParams options => exact .refl h
  | notifyShown uuid => exact (idles_notify ..).tends h
  | notifyAccepted uuid => exact (idles_notify ..).tends h
  | notifyRejected uuids =>
    unfold performAssistant
    dsimp only
    split
    · exact .refl h
    · exact (idles_notify ..).tends h
  | subscribe event label script =>
    have hname := tends_nameSubscriber (o := o) h label (s := script)
      (hf.assistantScript List.mem_cons_self)
    unfold performAssistant
    dsimp only
    split
    · exact hname
    · next topic _ =>
      have hidle : (w.nameSubscriber label script).Idles ((w.nameSubscriber label script
          ).updateAssistant fun a => a.subscribe topic (.host label)) := by
        refine idles_updateAssistant ?_
        unfold Assistant.subscribe
        split <;> rfl
      exact hname.trans (hidle.tends hname.fetching)
  | unsubscribe event label =>
    have hname := tends_nameSubscriber (o := o) h label (s := [])
      (List.forall_mem_nil _)
    unfold performAssistant
    dsimp only
    split
    · exact hname
    · exact hname.trans ((idles_updateAssistant rfl).tends hname.fetching)
  | openDocument uri languageId text =>
    exact ((idles_version 0 w).trans (idles_didOpen ..)).tends h
  | changeDocument uri text changes => exact (idles_changeVersion ..).tends h
  | _ => simp [Action.tends] at htends

include hstays

theorem tends_performClient {a : ClientAction Action} (hf : k.Fits w.client.nextId (.client a)) :
    Tends k o w (performClient run a w).2 := by
  have htends := hk _ hf.does
  have hclose : (Action.client a).closes = true → ¬ o := fun hc hs => by
    rw [hstays hs _ hf.does] at hc
    cases hc
  cases a with
  | request kind method params r t =>
    refine tends_answerCall (tends_ask hr h (answers_reactions hf rfl) _ _ _ ?_)
    cases t <;> simp [treatmentOf]
  | notify method params => exact (idles_notify ..).tends h
  | send m => exact tends_send hr h _
  | showCall id => exact tends_answerCall (.refl h)
  | receive bytes => exact tends_receive hr h bytes
  | handleRequests method spec =>
    exact tends_handleRequests h _ (hf.clientScript List.mem_cons_self)
  | handleNotifications method spec =>
    exact tends_handlers h
      (handles_setNotification h.handlers _ (hf.clientScript List.mem_cons_self))
      (statusHandled_setNotification h.statusHandler _ _)
  | removeHandler method =>
    exact tends_handlers h (handles_remove h.handlers _) (statusHandled_remove h.statusHandler _)
  | resolve method => exact .refl h
  | acceptWrites accept =>
    have hidle : w.Idles { w with transport := { w.transport with accepting := accept } } :=
      ⟨rfl, rfl, rfl, rfl, rfl, rfl, List.prefix_refl _⟩
    exact hidle.tends h
  | shutdown r =>
    exact tends_answerCall (tends_ask hr h (answers_reactions hf rfl) _ _ _ (by simp))
  | sendInitialized => exact (idles_notify ..).tends h
  | traceAt level => exact (idles_notify ..).tends h
  | exit => exact (idles_notify ..).tends h
  | openDocument uri languageId version text => exact (idles_didOpen ..).tends h
  | changeDocument uri version changes => exact (idles_didChange ..).tends h
  | closeDocument uri => exact (idles_notify ..).tends h
  | changeFolders added removed => exact (idles_didChangeFolders ..).tends h
  | close => exact tends_closeClient h (hclose rfl)
  | stopTransport =>
    have hnoted := (idles_record .transportStopped w).tends (o := o) h
    exact hnoted.trans (tends_closeClient hnoted.fetching (hclose rfl))
  | transportStatus text => exact (addsAsides_statusMessage ..).idles.tends h
  | verbosity level =>
    have hidle : w.Idles (w.updateClient fun c => { c with verbosity := Verbosity.ofJson level }) :=
      idles_client rfl rfl rfl
    exact hidle.tends h
  | logTraffic enabled =>
    have hidle : w.Idles (w.updateClient fun c => { c with logsTraffic := enabled.truthy }) :=
      idles_client rfl rfl rfl
    exact hidle.tends h
  | capabilities => exact .refl h
  | registrations => exact .refl h
  | _ => simp [Action.tends] at htends

/-! ## Actions and scripts -/

omit h in
/-- An action tends to the fetches, by induction over the actions within it. -/
theorem tends_perform (context : Option Nat) (a : Action) {w : World} (h : w.Fetching k)
    (hf : k.Fits w.client.nextId a) : Tends k o w (perform run context a w).2 :=
  match a with
  | .within n b => tends_perform _ b h (hf.within.fits _)
  | .raise f => .refl h
  | .context a =>
    match context with
    | none => .refl h
    | some n => tends_performContext hr h n a
  | .client a => tends_performClient hk hstays hr h hf
  | .assistant a => tends_performAssistant hk hr h hf
  | .task a => tends_performTask hr h hf
  | .editor a => by simpa [Action.tends] using hk _ hf.does
  | .session a => by simpa [Action.tends] using hk _ hf.does
  | .controller a => by simpa [Action.tends] using hk _ hf.does

theorem tends_performAll (context : Option Nat) {s : Script} (hs : k.AllowsAll s) :
    Tends k o w (performAll run context s w).2 :=
  performAll_preserves (.refl h) fun w₁ h a ha =>
    h.trans (tends_perform hk hstays hr context a h.fetching ((hs a ha).fits w₁.client.nextId))

omit hr h in
/-- However deeply scripts make one another run, they tend to the fetches. -/
theorem tends_runTo (depth : Nat) : (runTo depth).Tends k o := by
  induction depth with
  | zero => exact fun i w _ h => .refl h
  | succ depth ih =>
    intro i w hi h
    cases i with
    | script context actions => exact tends_performAll hk hstays ih h context hi
    | deliver bytes => exact tends_receive ih h bytes

omit hr in
/-- One action of the host. -/
theorem tends_act {a : Action} (hf : k.Fits w.client.nextId a) :
    Tends k o w (act a w).2 :=
  tends_perform hk hstays (tends_runTo hk hstays depthLimit) none a h hf

end Running

end GhostText.World
