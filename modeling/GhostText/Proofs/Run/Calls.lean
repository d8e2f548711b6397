import GhostText.Proofs.Run.Leads

/-!
# Making and settling calls is a row of steps

A call settles with an error, with the answer that is handed on to those who wait for it, or not at
all. What is run for it is run once it has settled.
-/

namespace GhostText

variable {k : Regime} {w w' : World}

/-- The answers that are ready, and what the transport says of a write it has answered, stay. -/
theorem Step.answers_eq (h : Step k w w') : w'.transport.answers = w.transport.answers ∧
    w'.transport.refusesAnswered = w.transport.refusesAnswered := by
  cases h with
  | transport step => exact step.answers_eq
  | session step => rw [step.beside.transport]; exact ⟨rfl, rfl⟩
  | document step => rw [step.informs.transport]; exact ⟨rfl, rfl⟩
  | _ => exact ⟨rfl, rfl⟩

/-- What is ready to be answered stays ready. -/
theorem Steps.answers_eq (h : Steps k w w') : w'.transport.answers = w.transport.answers ∧
    w'.transport.refusesAnswered = w.transport.refusesAnswered := by
  induction h with
  | refl => exact ⟨rfl, rfl⟩
  | tail _ step ih => exact ⟨step.answers_eq.1.trans ih.1, step.answers_eq.2.trans ih.2⟩

abbrev Verdict := Except Fault Reply

namespace Verdict

def waiting : Verdict → Call → List Continuation
  | .ok _ => Call.onResult
  | .error _ => Call.onError

def continueWith (run : Runner) : Verdict → Continuation → Act World Unit
  | .ok r => World.continueWithReply run r
  | .error f => World.continueWithError run f

end Verdict

def Call.settle : Verdict → Call → Call
  | .ok r => Call.fulfil r
  | .error f => Call.reject f

theorem Verdict.settling (v : Verdict) : Settling (Call.settle v) := by
  cases v with
  | ok r => exact .fulfil r
  | error f => exact .reject f

theorem Verdict.mem_of_mem_waiting (v : Verdict) (c : Call) :
    ∀ q ∈ v.waiting c, q ∈ c.onResult ++ c.onError := by
  cases v with
  | ok r => exact fun _ => List.mem_append_left _
  | error f => exact fun _ => List.mem_append_right _

/-- What a response settles a call with. -/
def Treatment.verdict (t : Treatment) (result : Json) : Option ResponseError → Verdict
  | some e => .error (.response e)
  | none =>
    match t with
    | .asIs => .ok (.value result)
    | .account => .ok (.value result)
    | .completions => (CompletionResult.ofJson result).map .completions
    | .host (.wrap key) => .ok (.value (.obj [(key, result)]))
    | .host (.refuse f) => .error f

namespace World

/-- What ends a fetch waits for a call only under a condition. -/
def Spares (w : World) (id : Nat) (p : Prop) : Prop :=
  ∀ c, w.client.call? id = some c → ∀ q ∈ c.onResult ++ c.onError, q.isOfFetch → p

/-- What a call was not made for it is never made for. -/
theorem Spares.steps {id : Nat} {p : Prop} (h : w.Spares id p) (hsteps : Steps k w w')
    (hs : k.Sound w) {c : Call} (hc : w.client.call? id = some c) : w'.Spares id p := by
  intro c' hc' q hq hf
  obtain ⟨c'', hc'', hevolves⟩ := hsteps.evolves hs hc
  obtain rfl := Option.some.inj (hc'.symm.trans hc'')
  exact h c hc q (hevolves.fetches q hq hf) hf

/-- What is run for a call, one after the other, once the call has settled. -/
theorem leads_continuations {id : Nat} {x : Continuation → Act World Unit} {qs : List Continuation}
    (hx : ∀ w, ∀ q ∈ qs, w.Settled id → Leads k w (x q w).2) (hs : w.Settled id) :
    Leads k w (qs.foldl (fun w q => w.callBack (x q)) w) := by
  induction qs generalizing w with
  | nil => exact .refl w
  | cons q qs ih =>
    have hq : Leads k w (w.callBack (x q)) := leads_callBack (hx w q List.mem_cons_self hs)
    refine .of_sound fun hsound => hq.trans ?_
    exact ih (fun w q hq => hx w q (List.mem_cons_of_mem _ hq))
      ((hq.steps hsound).settled hsound hs)

/-- Settles a call that has not settled, and runs what waits for it. -/
def settleCall (id : Nat) (f : Call → Call) (waiting : Call → List Continuation)
    (x : Continuation → Act World Unit) (w : World) : World :=
  match w.client.call? id with
  | none => w
  | some c =>
    if c.status ≠ .pending then w
    else (waiting c).foldl (fun w q => w.callBack (x q)) (w.updateClient fun k => k.updateCall id f)

/-- Settles a call that has not settled with a verdict. -/
def settleBy (run : Runner) (id : Nat) (v : Verdict) (w : World) : World :=
  settleCall id (Call.settle v) v.waiting (v.continueWith run) w

/-- A request that is refused is rejected at once, and some records are kept in between. -/
theorem request_of_refusing (run : Runner) (kind : CallKind) (method params : Json)
    (onResult onError : List Continuation) (treatment : Treatment)
    (refusing : w.transport.accepting = false) :
    ∃ f w₁, AddsAsides (w.updateClient fun c => c.addCall
        (.start w.client.nextId method.textOrEmpty kind onResult onError) treatment) w₁ ∧
      request run kind method params onResult onError treatment w = (w.client.nextId,
        settleBy run w.client.nextId (.error f)
          (w₁.updateClient fun c => c.dropPending w.client.nextId)) := by
  obtain ⟨w₁, hasides, hsend⟩ := send_of_refusing run
    (Message.request (.int w.client.nextId) method.textOrEmpty params).toJson
    (w := w.updateClient fun c => c.addCall
      (.start w.client.nextId method.textOrEmpty kind onResult onError) treatment) refusing
  refine ⟨.response (.of .internalError ("Transport refused write for " ++ method.shown)), w₁,
    hasides, ?_⟩
  unfold request
  dsimp only
  rw [hsend]
  rfl

theorem rejectCall_eq (run : Runner) (id : Nat) (f : Fault) (w : World) : rejectCall run id f w =
    settleCall id (Call.reject f) Call.onError (continueWithError run f) w := rfl

section Settling

variable {id : Nat} {f : Call → Call} {waiting : Call → List Continuation}
  {x : Continuation → Act World Unit} (hf : Settling f)
  (hw : ∀ c, ∀ q ∈ waiting c, q ∈ c.onResult ++ c.onError)
  {p : Prop} (hx : ∀ id w q, k.Awaits id q → (q.isOfFetch → p) → w.Settled id →
    Leads k w (x q w).2)

include hf hw hx

/-- What follows once a call was found and settled in one step. -/
theorem leads_settled {c : Call} (hc : w.client.call? id = some c) (spares : w.Spares id p)
    (step : Step k w w') (hscene : w'.scene = w.scene) (houtline : w'.outline = w.outline)
    (hc' : w'.client.call? id = some (f c)) :
    Leads k w ((waiting c).foldl (fun w q => w.callBack (x q)) w') := by
  have hsettled : w'.Settled id := ⟨f c, hc', hf.status c⟩
  refine .of_sound fun hs =>
    (Leads.single step hscene houtline).trans (leads_continuations ?_ hsettled)
  intro w q hq hset
  have hb := hs.bound.calls c (Client.mem_of_call? hc) q (hw c q hq)
  exact hx id w q (Client.call?_eq_some_id hc ▸ hb) (spares c hc q (hw c q hq)) hset

/-- A call that waits leaves the table and settles. -/
theorem leads_settleCall {call : PendingCall} (hp : call ∈ w.client.pending)
    (spares : w.Spares call.id p) : Leads k w
      (settleCall call.id f waiting x (w.updateClient fun c => c.dropPending call.id)) := by
  unfold settleCall
  dsimp only [updateClient]
  rw [Client.call?_dropPending]
  cases hc : w.client.call? call.id with
  | none =>
    refine .of_sound fun hs => ?_
    obtain ⟨c, hfound, -⟩ := hs.ledger.waiting call hp
    simp [hfound] at hc
  | some c =>
    dsimp only
    split
    · next hpend =>
      refine .of_sound fun hs => ?_
      obtain ⟨c', hfound, hp', -⟩ := hs.ledger.waiting call hp
      obtain rfl := Option.some.inj (hc.symm.trans hfound)
      simp [Call.isPending, hpend] at hp'
    · refine leads_settled hf hw hx hc spares (.client (.settle hp hf)) rfl rfl ?_
      rw [Client.call?_updateCall hf.id, if_pos rfl, Client.call?_dropPending, hc, Option.map_some]

/-- A call that was taken from the table before settles, if it has not settled yet. -/
theorem leads_settleCall_taken (absent : ∀ p ∈ w.client.pending, p.id ≠ id)
    (taken : w.transport.refusesAnswered = true ∨
      ∀ c, w.client.call? id = some c → c.isOfAccount = true) (held : k.holds id)
    (spares : w.Spares id p) : Leads k w (settleCall id f waiting x w) := by
  unfold settleCall
  cases hc : w.client.call? id with
  | none => exact .refl w
  | some c =>
    dsimp only
    split
    · exact .refl w
    · next hpend =>
      have hstep : Step k w (w.updateClient fun c => c.updateCall id f) :=
        .client (.settleTaken hc (by simpa using hpend) absent (taken.imp_right fun h => h c hc)
          held hf)
      refine leads_settled hf hw hx hc spares hstep rfl rfl ?_
      rw [updateClient, Client.call?_updateCall hf.id, if_pos rfl, hc, Option.map_some]

end Settling

section Running

variable {run : Runner} (hr : run.Steady k)

include hr

/-! ## Errors -/

/-- Whoever waits for a call may be told of its failure once it has settled. -/
theorem leads_continueWithError (f : Fault) {id : Nat} {q : Continuation} (hq : k.Awaits id q)
    (ha : q.isOfFetch → k.asks) (hs : w.Settled id) :
    Leads k w (continueWithError run f q w).2 := by
  cases q with
  | reaction r =>
    cases r with
    | host kind c => exact leads_callHost hr hq kind _ hs
    | startup step => exact (leads_log ..).trans (leads_finishStartup ..)
  | serverNotStarted =>
    have hclient : Leads k w (w.updateClient fun c => { c with isInitialized := false }) :=
      leads_client rfl rfl rfl (.aside rfl rfl rfl)
    exact hclient.trans (leads_statusMessage ..)
  | fetchFailed task => exact leads_fetchFailed hr (ha rfl) task f w
  | _ => exact .refl w

/-- A waiting call fails in one step, and telling those who wait for it takes the others. -/
theorem leads_rejectCall (f : Fault) {p : PendingCall} (hp : p ∈ w.client.pending)
    (spares : w.Spares p.id k.asks) :
    Leads k w (rejectCall run p.id f (w.updateClient fun c => c.dropPending p.id)) := by
  rw [rejectCall_eq]
  exact leads_settleCall (.reject f) (fun _ _ h => List.mem_append_right _ h)
    (fun _ _ _ hq ha hs => leads_continueWithError hr f hq ha hs) hp spares

/-- A call that is off the table already may still fail, if the conduct has room for that. -/
theorem leads_rejectCall_taken (f : Fault) {id : Nat} (absent : ∀ p ∈ w.client.pending, p.id ≠ id)
    (taken : w.transport.refusesAnswered = true ∨
      ∀ c, w.client.call? id = some c → c.isOfAccount = true) (held : k.holds id)
    (spares : w.Spares id k.asks) : Leads k w (rejectCall run id f w) := by
  rw [rejectCall_eq]
  exact leads_settleCall_taken (.reject f) (fun _ _ h => List.mem_append_right _ h)
    (fun _ _ _ hq ha hs => leads_continueWithError hr f hq ha hs) absent taken held spares

/-! ## Making a call -/

omit hr in
/-- What waits for a call that was just made is what was registered for it. -/
theorem spares_addCall (hl : w.client.Ledger) {onResult onError : List Continuation}
    {method : String} {treatment : Treatment}
    (hadmits : k.Admits w.client.nextId method treatment onResult onError) (kind : CallKind) :
    (w.updateClient fun c => c.addCall (.start w.client.nextId method kind onResult onError)
      treatment).Spares w.client.nextId k.asks := by
  intro c hc q hq
  simp only [updateClient, Client.call?_addCall, hl.call?_nextId, Call.start, if_true,
    Option.none_or, Option.some.injEq] at hc
  exact hadmits.asks q (by simpa [← hc] using hq)

/-- What a request leads to. -/
theorem leads_request (kind : CallKind) (method params : Json)
    {onResult onError : List Continuation} {treatment : Treatment}
    (hadmits : k.Admits w.client.nextId method.textOrEmpty treatment onResult onError) :
    Leads k w (request run kind method params onResult onError treatment w).2 := by
  refine .of_sound fun hs => ?_
  have hspares := spares_addCall hs.ledger hadmits kind
  set id := w.client.nextId with hid
  set call := Call.start id method.textOrEmpty kind onResult onError with hcall
  set w₁ := w.updateClient fun c => c.addCall call treatment with hw₁
  have hmake : Leads k w w₁ :=
    .single (.client (.make kind hadmits)) rfl rfl
  have hsends : k.Sends (Message.request (.int id) method.textOrEmpty params).toJson :=
    sends_of_id (.int id) rfl
  have hsend := leads_send hr hsends w₁
  unfold request
  cases hr' : send run (Message.request (.int id) method.textOrEmpty params).toJson w₁ with
  | mk accepted w₂ =>
    rw [hr'] at hsend
    have hsent := hmake.trans hsend
    simp only [← hid, ← hcall, ← hw₁, hr']
    cases accepted with
    | true => exact hsent
    | false =>
      dsimp only
      rcases send_refused (congrArg Prod.fst hr') with hasides | ⟨hlate, hreads⟩
      · -- nothing has happened to the call meanwhile
        obtain ⟨es, he, -⟩ := hasides
        rw [hr'] at he
        dsimp only [Adds] at he
        have hp : (⟨id, method.textOrEmpty, treatment⟩ : PendingCall) ∈ w₂.client.pending := by
          rw [he]
          exact List.mem_append_right _ List.mem_cons_self
        exact hsent.trans (leads_rejectCall hr _ hp (by rw [he]; exact hspares))
      · have hlate₂ := (hsend.steps ((hmake.steps hs).sound hs)).answers_eq.2.trans hlate
        have hasks : k.asks := (hs.reads hreads.choose_spec).1
        refine hsent.trans ((Leads.single (.client (.take id (Or.inl hlate₂))) rfl rfl).trans ?_)
        exact leads_rejectCall_taken hr _ (fun p hp => Client.ne_of_mem_dropPending hp)
          (Or.inl hlate₂) (hs.holds (Or.inl hid)) fun _ _ _ _ _ => hasks

/-! ## Giving up a call -/

omit hr in
/-- A call that waits is given up in one step, and the server is told. -/
theorem leads_cancelCall (id : Nat) (w : World) : Leads k w (cancelCall id w).2 := by
  unfold cancelCall
  cases hc : w.client.call? id with
  | none => exact .refl w
  | some c =>
    dsimp only
    split
    · exact .refl w
    · next hp =>
      have hcancel : Leads k w
          (w.updateClient fun c => (c.updateCall id Call.cancel).dropPending id) :=
        .single (.client (.cancel hc (by simpa using hp))) rfl rfl
      exact hcancel.trans (leads_notify rfl ..)

omit hr in
theorem leads_cancelRequest (id : Json) (w : World) : Leads k w (cancelRequest id w).2 := by
  unfold cancelRequest
  cases id.toInteger with
  | error f => exact .refl w
  | ok n =>
    dsimp only
    cases w.client.pendingFor? (.int n) with
    | none => exact .refl w
    | some p => exact leads_cancelCall p.id w

end Running

end World

end GhostText
