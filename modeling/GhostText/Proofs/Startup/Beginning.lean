import GhostText.Proofs.Startup.Answering

/-!
# How a start begins

Launched over a transport whose answers come later, a start waits for the answer to its first
request; over one that refuses messages it has failed at once.
-/

namespace GhostText

open Startup

namespace World

variable {w w' : World} {c : Config} {flag : Bool} {r : Frame.Reader} (run : Runner)

structure Dormant (flag : Bool) (w : World) : Prop where
  calls : w.client.calls = []
  pending : w.client.pending = []
  reader : w.client.reader = .fresh
  handlers : w.Unscripted
  subscriptions : w.assistant.subscriptions = [⟨0, .status, .terminal⟩]
  startup : w.startup = some ⟨flag, true, none⟩

/-- The first request as it is made, before anything waits for its answer. -/
def firstCall : Call := .start 1 "initialize" .mutation [] []

/-- Before its first request a start has made no calls. -/
theorem Dormant.ledger (h : w.Dormant flag) : w.client.Ledger :=
  ⟨by simp [h.calls], by simp [h.pending], by simp [Client.pendingIds, h.pending]⟩

/-- With its first request a start is under way. -/
theorem Dormant.addCall (h : w.Dormant flag) :
    (w.updateClient fun k => k.addCall firstCall .asIs).Underway flag ⟨.start, none⟩ := by
  refine ⟨?_, ?_, h.handlers, h.subscriptions, true, h.startup⟩
  · have hid : w.client.nextId = 1 := by simp [Client.nextId, h.calls]
    have hadded := h.ledger.addCall "initialize" .mutation [] [] .asIs
      (Inquiry.mem_accountMethods (q := .start))
    rwa [hid] at hadded
  · simp [updateClient, Client.addCall, h.calls, firstCall, Call.start, Inquiry.upTo, Inquiry.all,
      Inquiry.number, Inquiry.method]

theorem Dormant.call?_of_asked (h : w.Dormant flag) (e : w'.bearings =
    (w.updateClient fun k => k.addCall firstCall .asIs).bearings) :
    w'.client.call? 1 = some firstCall := by
  rw [Client.call?, show w'.client.calls = w.client.calls ++ [firstCall] from
    congrArg Bearings.calls e, h.calls]
  rfl

theorem Underway.await {s : Stage} (h : w.Underway flag s) (id : Nat)
    (onResult onError : List Continuation) :
    (w.updateClient fun k => k.updateCall id (Call.await onResult onError)).Underway flag s :=
  ⟨h.ledger.updateWaiting id (fun _ => rfl) (fun _ => rfl) fun _ => rfl,
    (Client.methods_updateCall (f := Call.await onResult onError) (fun _ => rfl) ..).trans
      h.methods,
    h.handlers, h.subscriptions, h.startup⟩

theorem call?_await {id : Nat} {call : Call} (found : w.client.call? id = some call)
    (onResult onError : List Continuation) :
    (w.updateClient fun k => k.updateCall id (Call.await onResult onError)).client.call? id =
      some (call.await onResult onError) := by
  rw [updateClient, Client.call?_updateCall (f := Call.await onResult onError) fun _ => rfl,
    if_pos rfl, found, Option.map_some]

/-- The server is asked to start, and waits. -/
theorem Dormant.startServer (h : w.Dormant flag) (accepting : w.transport.accepting = true)
    (later : w.transport.arrival = .later) (params : Json) :
    (World.startServer run params [.afterStart (startupHandshake c)] failStartup w).2.OnCourse c
      flag .fresh ⟨.start, none⟩ := by
  have hid : w.client.nextId = 1 := by simp [Client.nextId, h.calls]
  have hrequest := request_of_later run accepting later .mutation (.str "initialize") params [] []
    .asIs
  rw [Json.textOrEmpty_str, hid] at hrequest
  unfold World.startServer
  dsimp only
  generalize request run _ _ _ _ _ _ w = t at hrequest ⊢
  obtain ⟨id, w₁⟩ := t
  obtain ⟨rfl, e⟩ : id = 1 ∧ w₁.bearings = _ := hrequest
  have hasked : w₁.Underway flag ⟨.start, none⟩ := h.addCall.congr e
  have hfound := h.call?_of_asked e
  have hawaited := call?_await hfound [.serverStarted] [.serverNotStarted]
  dsimp only
  rw [andThen_eq_choose hfound]
  change (World.andThen run 1 _ _ (w₁.updateClient _)).OnCourse c flag .fresh _
  rw [andThen_eq_choose hawaited]
  change (World.updateClient _ (w₁.updateClient _)).OnCourse c flag .fresh _
  refine ⟨(hasked.await 1 _ _).await 1 _ _, fun _ => ⟨⟨?_, ?_, ?_⟩, ?_, _, call?_await hawaited _ _,
    rfl, rfl, rfl⟩, fun ended => absurd ended Bool.false_ne_true⟩
  · exact (congrArg Bearings.accepting e).trans accepting
  · exact (congrArg Bearings.arrival e).trans later
  · exact (congrArg Bearings.reader e).trans h.reader
  · refine (congrArg Bearings.pending e).trans ?_
    change w.client.pending ++ [_] = _
    rw [h.pending]
    rfl

/-- A first request that is refused is rejected. -/
theorem Dormant.request_refused (h : w.Dormant flag) (refusing : w.transport.accepting = false)
    (params : Json) :
    (request run .mutation (.str "initialize") params [] [] .asIs w).1 = 1 ∧
      (request run .mutation (.str "initialize") params [] [] .asIs w).2.Underway flag
        ⟨.start, none⟩ ∧
      ∃ f, (request run .mutation (.str "initialize") params [] [] .asIs w).2.client.call? 1 =
        some (firstCall.reject f) := by
  have hid : w.client.nextId = 1 := by simp [Client.nextId, h.calls]
  obtain ⟨f, w₁, hasides, hrequest⟩ := request_of_refusing run .mutation (.str "initialize") params
    [] [] .asIs refusing
  rw [Json.textOrEmpty_str, hid] at hasides
  rw [hid] at hrequest
  have e : w₁.bearings = _ := hasides.bearings
  have hasked : w₁.Underway flag ⟨.start, none⟩ := h.addCall.congr e
  have hfound := h.call?_of_asked e
  have hrejected : settleBy run 1 (.error f) (w₁.updateClient fun k => k.dropPending 1) =
      w₁.updateClient fun k => (k.dropPending 1).updateCall 1 (Call.reject f) := by
    rw [settleBy, settleCall, show (w₁.updateClient fun k => k.dropPending 1).client.call? 1 =
      some firstCall from hfound]
    rfl
  rw [hrequest, hrejected]
  refine ⟨rfl, ⟨hasked.ledger.endCall (f := Call.reject f) (fun _ => rfl) 1, ?_,
    hasked.handlers, hasked.subscriptions, hasked.startup⟩, f, ?_⟩
  · exact (Client.methods_updateCall (f := Call.reject f) (fun _ => rfl) ..).trans hasked.methods
  · rw [updateClient, Client.call?_updateCall (f := Call.reject f) fun _ => rfl, if_pos rfl,
      Client.call?_dropPending, hfound, Option.map_some]

/-- The server cannot be asked to start, and the start ends. -/
theorem Dormant.startServer_refused (h : w.Dormant flag) (refusing : w.transport.accepting = false)
    (params : Json) :
    (World.startServer run params [.afterStart (startupHandshake c)] failStartup w).2.OnCourse c
      flag r ⟨.start, some 1⟩ := by
  have hrequest := h.request_refused run refusing params
  unfold World.startServer
  dsimp only
  generalize request run _ _ _ _ _ _ w = t at hrequest ⊢
  obtain ⟨id, w₁⟩ := t
  obtain ⟨rfl, hasked, f, hfound⟩ := hrequest
  dsimp only at hasked hfound ⊢
  rw [andThen_eq_choose hfound]
  have hnoted := (bearings_callBack (continueWithError run f .serverNotStarted) w₁).trans
    (bearings_statusMessage ..)
  have hstill : (w₁.callBack (continueWithError run f .serverNotStarted)).client.call? 1 =
      some (firstCall.reject f) := by
    rw [Client.call?, show (w₁.callBack _).client.calls = w₁.client.calls from
      congrArg Bearings.calls hnoted]
    exact hfound
  have hverdict : (firstCall.reject f).verdict? = some (.error f) := rfl
  rw [hverdict]
  change (World.andThen run 1 _ _ (w₁.callBack
    (continueWithError run f .serverNotStarted))).OnCourse c flag r _
  rw [andThen_eq_choose hstill, hverdict]
  exact (hasked.congr hnoted).fail run f

/-- Before anything is asked a start is dormant, whatever its settings. -/
theorem dormant_opening (processId : Int) (t : Transport) (c : Config) (warning : Option String)
    (flag : Bool) :
    let w := startAssistant processId t ⟨.null, .str c.logging.name, [], []⟩
    let w := { w with startup := some ⟨flag, true, none⟩ }
    let w := w.updateAssistant fun a => a.subscribe .status .terminal
    (w.opening warning c).Dormant flag ∧ (w.opening warning c).transport = t := by
  cases warning <;> exact ⟨⟨rfl, rfl, rfl, rfl, rfl, rfl⟩, rfl⟩

/-- A start that is launched waits for its first answer, unless messages are refused. -/
theorem onCourse_launched (processId : Int) {t : Transport} (later : t.arrival = .later)
    (warning : Option String) (flag : Bool) (folder : String) :
    ∃ code, (launched run processId t c warning flag folder).OnCourse c flag .fresh
      ⟨.start, code⟩ ∧ (code = none ∨ code = some 1) := by
  obtain ⟨hdormant, htransport⟩ := dormant_opening processId t c warning flag
  unfold launched
  dsimp only at hdormant htransport ⊢
  generalize opening warning c _ = w at hdormant htransport ⊢
  have hinteger : (orGiven .null (.int w.processId)).toInteger = .ok w.processId := rfl
  unfold handshake
  rw [hinteger]
  dsimp only
  cases accepting : t.accepting with
  | true =>
    exact ⟨none, hdormant.startServer run (htransport ▸ accepting) (htransport ▸ later) _,
      .inl rfl⟩
  | false =>
    exact ⟨some 1, hdormant.startServer_refused run (htransport ▸ accepting) _, .inr rfl⟩

end World

end GhostText
