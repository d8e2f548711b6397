import GhostText.Client.Dispatch
import GhostText.Proofs.Run.Syncing

/-!
# Answering and dispatching are rows of steps

What happens when a message comes. An answer settles its call and is handed on to those who wait for
it. The answer to a request of an account is in hand while it is still to be told: there the call
waits no more and has not settled.
-/

namespace GhostText

/-- The result and the error in a body, if it is a response to a call. -/
def Frame.Body.responseTo? (id : Nat) : Frame.Body → Option (Json × Option ResponseError)
  | .value v =>
    match Message.classify v with
    | .ok (.response (.int n) result error) => if n = id then some (result, error) else none
    | _ => none
  | .malformed _ _ => none

/-- A body that is a response to a call is read as one. -/
theorem Frame.Body.classify_of_responseTo? {b : Frame.Body} {id : Nat} {result : Json}
    {error : Option ResponseError} (h : b.responseTo? id = some (result, error)) :
    ∃ v, b = .value v ∧ Message.classify v = .ok (.response (.int id) result error) := by
  cases b with
  | malformed raw e => cases h
  | value v =>
    refine ⟨v, rfl, ?_⟩
    unfold responseTo? at h
    dsimp only at h
    split at h
    · next hc =>
      rw [hc]
      split at h
      · next hn =>
        cases h
        rw [hn]
      · cases h
    · cases h

/-- A body answers at most one call. -/
theorem Frame.Body.responseTo?_inj {b : Frame.Body} {i j : Nat} (hi : (b.responseTo? i).isSome)
    (hj : (b.responseTo? j).isSome) : i = j := by
  cases b with
  | malformed raw e => cases hi
  | value v =>
    unfold responseTo? at hi hj
    dsimp only at hi hj
    split at hi
    · next hc =>
      rw [hc] at hj
      dsimp only at hj
      split at hi
      · next hni =>
        split at hj
        · next hnj => exact Int.ofNat_inj.1 (hni.symm.trans hnj)
        · cases hj
      · cases hi
    · cases hi

namespace World

variable {k : Regime} {run : Runner} (hr : run.Steady k) {w : World}

include hr

/-! ## Calls that succeed -/

/-- Whoever waits for a call may be told of its result once it has settled. -/
theorem leads_continueWithReply (r : Reply) {id : Nat} {q : Continuation} (hq : k.Awaits id q)
    (hreads : q.isOfFetch → k.reads) (hs : w.Settled id) :
    Leads k w (continueWithReply run r q w).2 := by
  cases q with
  | reaction reaction =>
    cases reaction with
    | host kind c => exact leads_callHost hr hq kind _ hs
    | startup step => exact leads_continueStartup hr ..
  | serverStarted => exact leads_serverStarted hr ..
  | afterStart h => exact leads_afterStart hr hq w
  | afterEditorInfo h => exact leads_afterEditorInfo hr hq w
  | fetched task sink =>
    cases r with
    | value v => exact .refl w
    | completions result => exact leads_fetchAnswered hr (hreads rfl) task result hq hs
  | _ => exact .refl w

/-- Whoever waits for a call is told what it has settled with. -/
theorem leads_continueWith (v : Verdict) {id : Nat} {q : Continuation} (hq : k.Awaits id q)
    (hreads : q.isOfFetch → k.reads) (hs : w.Settled id) :
    Leads k w (v.continueWith run q w).2 := by
  cases v with
  | ok r => exact leads_continueWithReply hr r hq hreads hs
  | error f => exact leads_continueWithError hr f hq (fun hf => (hreads hf).1) hs

/-- A waiting call settles in one step, and telling those who wait for it takes the others. -/
theorem leads_settleBy (v : Verdict) {p : PendingCall} (hp : p ∈ w.client.pending)
    (spares : w.Spares p.id k.reads) :
    Leads k w (settleBy run p.id v (w.updateClient fun c => c.dropPending p.id)) :=
  leads_settleCall v.settling v.mem_of_mem_waiting
    (fun _ _ _ hq hreads hs => leads_continueWith hr v hq hreads hs) hp spares

/-- A call that is off the table already may still settle, if the conduct has room for that. -/
theorem leads_settleBy_taken (v : Verdict) {id : Nat} (absent : ∀ p ∈ w.client.pending, p.id ≠ id)
    (account : ∀ c, w.client.call? id = some c → c.isOfAccount = true) (held : k.holds id)
    (spares : w.Spares id k.reads) : Leads k w (settleBy run id v w) :=
  leads_settleCall_taken v.settling v.mem_of_mem_waiting
    (fun _ _ _ hq hreads hs => leads_continueWith hr v hq hreads hs) absent (Or.inr account)
    held spares

/-- What ends no fetch may be added to a call at any time. -/
theorem leads_andThen {id : Nat} {onResult onError : List Continuation}
    (h : k.AwaitsAll id (onResult ++ onError))
    (plain : ∀ q ∈ onResult ++ onError, q.isOfFetch = false) (w : World) :
    Leads k w (andThen run id onResult onError w) := by
  obtain ⟨hres, herr⟩ := Conduct.awaitsAll_append.1 h
  obtain ⟨plain₁, plain₂⟩ := List.forall_mem_append.1 plain
  unfold andThen
  cases hc : w.client.call? id with
  | none => exact .refl w
  | some c =>
    dsimp only
    split
    · next hstatus _ =>
      exact leads_continuations
        (fun w q hq hs => leads_continueWithReply hr _ (hres q hq)
          (by simp [plain₁ q hq]) hs) ⟨c, hc, by simp [hstatus]⟩
    · next hstatus _ =>
      exact leads_continuations
        (fun w q hq hs => leads_continueWithError hr _ (herr q hq)
          (by simp [plain₂ q hq]) hs) ⟨c, hc, by simp [hstatus]⟩
    · exact .single (.client (.await _ _ h plain)) rfl rfl

/-! ## The start of the server -/

omit hr in
theorem fst_request (kind : CallKind) (method params : Json) (onResult onError : List Continuation)
    (treatment : Treatment) (w : World) :
    (request run kind method params onResult onError treatment w).1 = w.client.nextId := by
  unfold request
  dsimp only
  split <;> rfl

theorem leads_startServer (params : Json) {onResult onError : List Continuation}
    (h : k.AwaitsAll w.client.nextId (onResult ++ onError))
    (plain : ∀ q ∈ onResult ++ onError, q.isOfFetch = false) :
    Leads k w (startServer run params onResult onError w).2 := by
  have hask : Leads k w (request run .mutation (.str "initialize") params [] [] .asIs w).2 :=
    leads_request hr _ _ _ (.ofPlain nofun nofun (by decide) nofun)
  have hid : (request run .mutation (.str "initialize") params [] [] .asIs w).1 = w.client.nextId :=
    fst_request ..
  have hstarted : k.AwaitsAll w.client.nextId ([.serverStarted] ++ [.serverNotStarted]) := by
    intro q hq
    simp only [List.cons_append, List.nil_append, List.mem_cons, List.not_mem_nil, or_false] at hq
    rcases hq with rfl | rfl <;> trivial
  unfold startServer
  generalize request run .mutation (.str "initialize") params [] [] .asIs w = r at hask hid ⊢
  obtain ⟨id, w₁⟩ := r
  obtain rfl : id = w.client.nextId := hid
  exact hask.trans ((leads_andThen hr hstarted (by simp [Continuation.isOfFetch]) w₁).trans
    (leads_andThen hr h plain _))

theorem leads_handshake (folder trace processId : Json) {h : Handshake} (hg : k.Greets h)
    (w : World) : Leads k w (handshake run folder trace processId h w).2 := by
  unfold handshake
  split
  · exact .refl w
  · exact leads_startServer hr _
      (Conduct.awaitsAll_append.2
        ⟨fun q hq => List.mem_singleton.1 hq ▸ hg, awaitsAll_onError hg _⟩)
      (List.forall_mem_append.2 ⟨by simp [Continuation.isOfFetch], plain_ofReactions _⟩)

/-! ## Responses -/

omit hr in
/-- Whether a record is kept does not depend on the table of calls. -/
theorem clientLog_dropPending (level : LogLevel) (text : String) (id : Nat) (w : World) :
    (w.updateClient fun c => c.dropPending id).clientLog level text =
      (w.clientLog level text).updateClient fun c => c.dropPending id := by
  change (if w.client.logs level then _ else _) =
    updateClient _ (if w.client.logs level then _ else _)
  split <;> rfl

/-- The answer of an account is told before its call settles. -/
theorem leads_settleAccount {p : PendingCall} (hp : p ∈ w.client.pending)
    (spares : w.Spares p.id k.reads) (ht : p.treatment = .account) (status : Json) (v : Verdict) :
    Leads k w (settleBy run p.id v
      (reportAccount run status (w.updateClient fun c => c.dropPending p.id))) := by
  refine .of_sound fun hs => ?_
  obtain ⟨call, hc, -, haccount⟩ := hs.ledger.waiting p hp
  have htake : Leads k w (w.updateClient fun c => c.dropPending p.id) :=
    .single (.client (.take p.id (Or.inr ⟨p, hp, rfl, ht⟩))) rfl rfl
  have hreport := leads_reportAccount hr status (w.updateClient fun c => c.dropPending p.id)
  have hsteps := hreport.steps ((htake.steps hs).sound hs)
  -- scripts that run while the answer is told find the call gone from the table, and leave it so
  have habsent : (w.client.dropPending p.id).Absent p.id :=
    ⟨hs.ledger.lt_nextId hc, fun q hq => Client.ne_of_mem_dropPending hq⟩
  refine (htake.trans hreport).trans
    (leads_settleBy_taken hr v ?_ ?_ (hs.holds (Or.inr ⟨p, hp, rfl⟩)) ?_)
  · exact (hsteps.absent habsent).absent
  · intro call' hc'
    have hc₁ : (w.updateClient fun c => c.dropPending p.id).client.call? p.id = some call := hc
    obtain ⟨call'', hc'', he⟩ := hsteps.evolves ((htake.steps hs).sound hs) hc₁
    obtain rfl := Option.some.inj (hc'.symm.trans hc'')
    simpa only [Call.isOfAccount, he.method] using haccount ht
  · exact Spares.steps (w := w.updateClient fun c => c.dropPending p.id) spares hsteps
      ((htake.steps hs).sound hs) hc

omit hr in
/-- The call that an answer belongs to waits in the table. -/
theorem mem_of_pendingFor? {id : Json} {c : Client} {p : PendingCall}
    (h : c.pendingFor? id = some p) : p ∈ c.pending := by
  cases id with
  | int n => exact List.mem_of_find?_eq_some h
  | _ => simp [Client.pendingFor?] at h

omit hr in
/-- A response that no call waits for leaves nothing but records. -/
theorem handleResponse_of_none (run : Runner) {id : Json} (hp : w.client.pendingFor? id = none)
    (result : Json) (error : Option ResponseError) :
    w.AddsAsides (handleResponse run id result error w) := by
  unfold handleResponse
  rw [hp]
  split
  · exact addsAsides_clientLog ..
  · exact addsAsides_clientLog ..

omit hr in
/-- The call that waits for a response leaves the table and settles with the verdict, some records
aside; the state of an account is told in between. -/
theorem handleResponse_of_some (run : Runner) {id : Json} {p : PendingCall}
    (hp : w.client.pendingFor? id = some p) (result : Json) (error : Option ResponseError) :
    ∃ w₁, handleResponse run id result error w =
        settleBy run p.id (p.treatment.verdict result error) w₁ ∧
      ((∃ w₀, w.AddsAsides w₀ ∧ w₁ = w₀.updateClient fun c => c.dropPending p.id) ∨
        p.treatment = .account ∧ w₁ = reportAccount run (result.fieldD "status")
          (w.updateClient fun c => c.dropPending p.id)) := by
  have hid : id.isNull = false := by
    cases id with
    | null => cases hp
    | _ => rfl
  have hrejected : ∀ (f : Fault) (w : World), ∃ w₀, w.AddsAsides w₀ ∧
      rejectResult run p f (w.updateClient fun c => c.dropPending p.id) =
        settleBy run p.id (.error f) (w₀.updateClient fun c => c.dropPending p.id) := by
    intro f w
    refine ⟨_, addsAsides_clientLog .error
      ("Could not interpret the result of " ++ p.method ++ ": " ++ f.message) w, ?_⟩
    rw [rejectResult, clientLog_dropPending]
    rfl
  unfold handleResponse
  simp only [hid, Bool.false_eq_true, if_false, hp]
  cases error with
  | some e => exact ⟨_, rfl, .inl ⟨w, .refl w, rfl⟩⟩
  | none =>
    dsimp only [settleResult]
    cases p.treatment with
    | asIs => exact ⟨_, rfl, .inl ⟨w, .refl w, rfl⟩⟩
    | account =>
      dsimp only
      split
      · exact ⟨_, rfl, .inr ⟨rfl, rfl⟩⟩
      · exact ⟨_, rfl, .inl ⟨w, .refl w, rfl⟩⟩
    | completions =>
      dsimp only [Treatment.verdict]
      cases CompletionResult.ofJson result with
      | ok r => exact ⟨_, rfl, .inl ⟨w, .refl w, rfl⟩⟩
      | error f =>
        obtain ⟨w₀, hasides, he⟩ := hrejected f w
        exact ⟨_, he, .inl ⟨w₀, hasides, rfl⟩⟩
    | host t =>
      have hnoted := addsAsides_record (e := .transformed result) rfl w
      cases t with
      | wrap key => exact ⟨_, rfl, .inl ⟨_, hnoted, rfl⟩⟩
      | refuse f =>
        obtain ⟨w₀, hasides, he⟩ := hrejected f (w.record (.transformed result))
        exact ⟨_, he, .inl ⟨w₀, hnoted.trans hasides, rfl⟩⟩

/-- An answer to a fetch is handled only where answers are read. -/
theorem leads_handleResponse (id result : Json) (error : Option ResponseError)
    (spares : ∀ p, w.client.pendingFor? id = some p → w.Spares p.id k.reads) :
    Leads k w (handleResponse run id result error w) := by
  cases hp : w.client.pendingFor? id with
  | none => exact (handleResponse_of_none run hp result error).leads
  | some p =>
    have hwaits := mem_of_pendingFor? hp
    obtain ⟨w₁, he, ⟨w₀, asides, rfl⟩ | ⟨ht, rfl⟩⟩ := handleResponse_of_some run hp result error
    · have hbefore := asides.leads (k := k)
      obtain ⟨es, rfl, -⟩ := asides
      exact he ▸ hbefore.trans (leads_settleBy hr _ hwaits (spares p hp))
    · exact he ▸ leads_settleAccount hr hwaits (spares p hp) ht _ _

/-! ## Requests of the peer -/

omit hr in
theorem leads_changeRegistrations (n : Nat) (change : Registrations → Except Fault Registrations)
    (w : World) : Leads k w (changeRegistrations n change w).2 := by
  unfold changeRegistrations
  split
  · exact .refl w
  · next rs _ =>
    have hclient : Leads k w (w.updateClient fun c => { c with registrations := rs }) :=
      leads_client rfl rfl rfl (.aside rfl rfl rfl)
    exact hclient.trans (leads_succeed ..)

theorem leads_callRequestHandler (n : Nat) (method : String) (params id : Json)
    {h : RequestHandler} (hh : ∀ kind script, h = .user kind (some script) → k.AllowsAll script)
    (w : World) : Leads k w (callRequestHandler run n method params id h w).2 := by
  cases h with
  | user kind script =>
    cases script with
    | none => exact .refl w
    | some script => exact (Leads.note rfl).trans (hr.leads _ _ (hh kind script rfl))
  | reserved r => cases r <;> exact leads_changeRegistrations ..

omit hr in
theorem leads_handlerFailed (n : Nat) (method : String) (f : Fault) (w : World) :
    Leads k w (w.handlerFailed n method f) := by
  unfold handlerFailed
  dsimp only
  split
  · exact leads_clientLog ..
  · exact (leads_clientLog ..).trans (leads_failAs ..)

omit hr in
/-- A handler of the host that is found was registered. -/
theorem mem_of_request? {h : Handlers} {method : String} {kind : CallKind} {script : Option Script}
    (found : h.request? method = some (.user kind script)) :
    (method, .user kind script) ∈ h.requests := by
  unfold Handlers.request? at found
  split at found
  · next hl =>
    simp only [Option.some.injEq, RequestHandler.user.injEq] at found
    exact found.1 ▸ found.2 ▸ mem_of_lookup hl
  · simp at found

omit hr in
/-- The script of a handler that is found is one of those the host may run. -/
theorem allows_request? {h : Handlers} (hh : k.Handles h) {method : String} {kind : CallKind}
    {script : Script} (found : h.request? method = some (.user kind (some script))) :
    k.AllowsAll script :=
  hh.requests method kind script (mem_of_request? found)

def handed (method : String) (id : Json) (w : World) : World :=
  (w.openContext method id true).2.updateClient fun c => c.openRequest id

omit hr in
/-- A request that is handled is open from then on, and answered for if its handler fails. -/
theorem handleRequest_eq {method : String} {h : RequestHandler}
    (handled : w.client.handlers.request? method = some h) (id params : Json) :
    handleRequest run w.client.contexts.length id method params (w.openContext method id true).2 =
      match callRequestHandler run w.client.contexts.length method params id h
        (w.handed method id) with
      | (.ok _, w₁) => w₁
      | (.error f, w₁) => w₁.handlerFailed w.client.contexts.length method f := by
  have hhandlers : (w.openContext method id true).2.client.handlers.request? method = some h :=
    handled
  unfold handleRequest
  rw [hhandlers]
  rfl

omit hr in
theorem leads_openContext (method : String) (id : Json) (isRequest : Bool) (w : World) :
    Leads k w (w.openContext method id isRequest).2 :=
  leads_client rfl rfl rfl (.come ..)

theorem leads_handleRequest (id : Json) (method : String) (params : Json) (w : World) :
    Leads k w (handleRequest run w.client.contexts.length id method params
      (w.openContext method id true).2) := by
  cases hfound : w.client.handlers.request? method with
  | none =>
    have hnone : (w.openContext method id true).2.client.handlers.request? method = none := hfound
    refine (leads_openContext method id true w).trans ?_
    unfold handleRequest
    rw [hnone]
    dsimp only
    split
    · exact leads_failAs ..
    · exact leads_clientLog ..
  | some h =>
    refine .of_sound fun hs => ?_
    have hopen : Leads k w (w.handed method id) := leads_client rfl rfl rfl (.hand ..)
    have hcall := hopen.trans (leads_callRequestHandler hr w.client.contexts.length method params id
      (h := h) (fun kind script he => allows_request? hs.bound.handlers (he ▸ hfound)) _)
    rw [handleRequest_eq hfound]
    generalize callRequestHandler run _ method params id h _ = r at hcall ⊢
    obtain ⟨_ | _, w₁⟩ := r
    · exact hcall.trans (leads_handlerFailed ..)
    · exact hcall

/-! ## Notifications of the peer -/

omit hr in
theorem leads_suppressLogging (n : Nat) (w : World) : Leads k w (w.suppressLogging n) :=
  leads_client rfl rfl rfl (.suppress n)

omit hr in
theorem leads_takeReserved (n : Nat) (params : Json) (r : ReservedNotification) (w : World) :
    Leads k w (takeReserved n params r w).2 := by
  cases r with
  | cancelRequest =>
    unfold takeReserved
    dsimp only
    split
    · exact .refl w
    · split
      · exact .refl w
      · next c marked =>
        have hpeer : w.client.PeerStep c := .cancel marked
        rw [(Client.context?_of_markCancelled marked).1] at hpeer ⊢
        exact leads_client rfl rfl rfl hpeer
  | progress => exact leads_signal rfl w
  | logTrace => exact leads_clientLog ..
  | logMessage =>
    unfold takeReserved
    dsimp only
    split
    · exact leads_suppressLogging n w
    · exact (leads_suppressLogging n w).trans (leads_clientLog ..)

omit hr in
theorem leads_takeServerLog (n : Nat) (params : Json) (w : World) :
    Leads k w (w.takeServerLog n params) :=
  (leads_suppressLogging n w).trans (leads_clientLog ..)

theorem leads_takeServerStatus (params : Json) (w : World) :
    Leads k w (takeServerStatus run params w) := by
  unfold takeServerStatus
  dsimp only
  split
  · exact leads_changeStatus hr ..
  · exact leads_clientLog ..

theorem leads_callNotificationHandler (n : Nat) (method : String) (params : Json)
    {h : NotificationHandler} (hh : ∀ script, h = .user (.script script) → k.AllowsAll script)
    (w : World) : Leads k w (callNotificationHandler run n method params h w).2 := by
  cases h with
  | reserved r => exact leads_takeReserved ..
  | user e =>
    cases e with
    | script s => exact (Leads.note rfl).trans (hr.leads _ _ (hh s rfl))
    | serverLog => exact leads_takeServerLog ..
    | serverStatus => exact leads_takeServerStatus hr ..
    | _ => exact .refl w

omit hr in
theorem mem_of_notification? {h : Handlers} {method : String} {e : NotificationEntry}
    (found : h.notification? method = some (.user e)) : (method, e) ∈ h.notifications := by
  unfold Handlers.notification? at found
  split at found
  · simp at found
  · simp at found
  · next hl =>
    simp only [Option.some.injEq, NotificationHandler.user.injEq] at found
    exact found ▸ mem_of_lookup hl

omit hr in
theorem allows_notification? {h : Handlers} (hh : k.Handles h) {method : String} {script : Script}
    (found : h.notification? method = some (.user (.script script))) : k.AllowsAll script :=
  hh.notifications method script (mem_of_notification? found)

/-- A handler that fails is logged, and the notification is signalled all the same. -/
theorem leads_handleNotification (n : Nat) (method : String) (params : Json) (w : World) :
    Leads k w (handleNotification run n method params w) := by
  unfold handleNotification
  dsimp only
  refine Leads.trans ?_ (leads_signal rfl _)
  split
  · exact .refl w
  · next h hfound =>
    refine .of_sound fun hs => ?_
    have hcall := leads_callNotificationHandler hr n method params (h := h)
      (fun script he => allows_notification? hs.bound.handlers (he ▸ hfound)) w
    generalize callNotificationHandler run n method params h w = r at hcall ⊢
    obtain ⟨_ | _, w₁⟩ := r
    · exact hcall.trans (leads_clientLog ..)
    · exact hcall

/-! ## Messages -/

omit hr in
theorem leads_logIncoming (n : Nat) (v : Json) (w : World) : Leads k w (w.logIncoming n v) := by
  unfold logIncoming
  split
  · exact .refl w
  · exact leads_logTraffic ..

theorem leads_handleMessage (v : Json) (m : Message)
    (spares : ∀ id result error, m = .response id result error →
      ∀ p, w.client.pendingFor? id = some p → w.Spares p.id k.reads) :
    Leads k w (handleMessage run v w m) := by
  cases m with
  | response id result error =>
    exact (leads_handleResponse hr id result error (spares id result error rfl)).trans
      (leads_logTraffic ..)
  | request id method params =>
    exact (leads_handleRequest hr id method params w).trans (leads_logIncoming ..)
  | notification method params =>
    exact (leads_openContext method .null false w).trans
      ((leads_handleNotification hr ..).trans (leads_logIncoming ..))

omit hr in
theorem responseTo?_of_pendingFor? {v id result : Json} {error : Option ResponseError}
    (hm : Message.classify v = .ok (.response id result error)) {p : PendingCall}
    (hp : w.client.pendingFor? id = some p) :
    (Frame.Body.value v).responseTo? p.id = some (result, error) := by
  cases id with
  | int n =>
    have hid : (p.id : Int) = n := by simpa using List.find?_some hp
    simp [Frame.Body.responseTo?, hm, hid]
  | _ => cases hp

omit hr in
/-- A message is handled as what it was understood to be. -/
theorem dispatch_of_classify (run : Runner) {v : Json} {m : Message}
    (hm : Message.classify v = .ok m) (w : World) :
    dispatch run w (.value v) = handleMessage run v w m := by
  rw [dispatch, hm]

/-- A message leads to steps that settle no call but the one it answers. -/
theorem leads_dispatch (b : Frame.Body)
    (spares : ∀ p ∈ w.client.pending, (b.responseTo? p.id).isSome → w.Spares p.id k.reads) :
    Leads k w (dispatch run w b) := by
  cases b with
  | malformed raw e => exact leads_clientLog ..
  | value v =>
    unfold dispatch
    dsimp only
    split
    · exact leads_clientLog ..
    · next m hm =>
      refine leads_handleMessage hr v m fun id result error he p hp => ?_
      exact spares p (mem_of_pendingFor? hp) (by rw [responseTo?_of_pendingFor? (he ▸ hm) hp]; rfl)

/-- What is done with bytes before the messages in them are dispatched. -/
def feed (bytes : List UInt8) (w : World) : World :=
  (w.client.reader.feed bytes).skipped.foldl
    (fun w header => w.log .debug
      ("Skipping frame with malformed header: " ++ Text.quotedBytes (header.take 80)))
    (w.updateClient fun c => { c with reader := (w.client.reader.feed bytes).reader })

omit hr in
/-- To receive bytes is to take them in and then to dispatch the messages they complete. -/
theorem receive_eq (run : Runner) (bytes : List UInt8) (w : World) : receive run bytes w =
    (w.client.reader.feed bytes).bodies.foldl (dispatch run) (w.feed bytes) := rfl

omit hr in
/-- The bytes are read, and frames that are skipped are logged. -/
theorem addsAsides_feed (bytes : List UInt8) (w : World) : AddsAsides
    (w.updateClient fun c => { c with reader := (w.client.reader.feed bytes).reader })
    (w.feed bytes) := by
  unfold feed
  generalize w.updateClient _ = w₁
  exact List.foldlRecOn (motive := AddsAsides w₁) _ _ (.refl w₁) fun _ h _ _ =>
    h.trans (addsAsides_log ..)

omit hr in
theorem leads_feed (bytes : List UInt8) (w : World) : Leads k w (w.feed bytes) := by
  have hreader : Leads k w
      (w.updateClient fun c => { c with reader := (w.client.reader.feed bytes).reader }) :=
    leads_client rfl rfl rfl (.aside rfl rfl rfl)
  exact hreader.trans (addsAsides_feed bytes w).leads

/-- To receive bytes is a row of steps, message by message. -/
theorem leads_receive (hreads : k.reads) (bytes : List UInt8) (w : World) :
    Leads k w (receive run bytes w) := by
  rw [receive_eq run]
  exact (leads_feed bytes w).trans
    (Leads.foldl (fun _ b _ => leads_dispatch hr b fun _ _ _ _ _ _ _ _ => hreads) _)

end World

end GhostText
