import GhostText.Proofs.Client.Serving
import GhostText.Proofs.Run.Unrestrained

/-!
# Requests that are cancelled

The peer may cancel a request of its own at any time before it is answered. The client remembers
that for as long as the request is in flight, whatever else is done meanwhile. Only where a handler
succeeds is it looked up when the request is answered: an error that the host gives, and one that
stands for a handler that has failed, is sent as it is.
-/

namespace GhostText

namespace Client

variable {c c' : Client} {id : Json}

theorem contains_insertId_self (hid : Message.isId id) (ids : List Json) :
    contains (insertId id ids) id = true := by
  unfold insertId
  split
  · next h => exact h
  · exact List.any_eq_true.2 ⟨id, by simp, (Message.same_iff_of_isId hid hid).2 rfl⟩

/-- A request in flight can be marked as cancelled. -/
theorem markCancelled_eq (hid : Message.isId id) (hf : contains c.inFlight id = true) :
    c.markCancelled id = .ok { c with cancelled := insertId id c.cancelled } := by
  have hplain : id.isStructured = false := by cases id <;> first | rfl | cases hid
  rw [markCancelled, hplain, if_neg Bool.false_ne_true, if_pos hf]

/-- No request but a certain one has come under an identifier. -/
def IsOnly (n : Nat) (id : Json) (c : Client) : Prop :=
  ∀ m < c.contexts.length, (c.context? m).any (fun k => k.isRequest && id.same k.id) = true → m = n

instance (n : Nat) (id : Json) (c : Client) : Decidable (c.IsOnly n id) :=
  inferInstanceAs (Decidable (∀ m < _, _))

/-- There is no other request with the identifier. -/
theorem IsOnly.eq {n m : Nat} {k : Context} (h : c.IsOnly n id) (hk : c.context? m = some k)
    (hr : k.isRequest = true) (hid : id.same k.id = true) : m = n :=
  h m (lt_of_context? hk) (by simp [hk, hr, hid])

/-- A request of the peer, the only one under its identifier, is not answered yet. -/
structure Outstanding (n : Nat) (k : Context) (c : Client) : Prop where
  found : c.context? n = some k
  isRequest : k.isRequest = true
  unanswered : k.answered = false
  isId : Message.isId k.id = true
  nonnull : k.id.isNull = false
  only : c.IsOnly n k.id

end Client

namespace World

variable {run : Runner} {w w' : World} {v params : Json} {n : Nat} {c : Context}

theorem sentPayloads_asides (h : AddsAsides w w') : w'.sentPayloads = w.sentPayloads := by
  obtain ⟨es, rfl, ha⟩ := h
  simp [sentPayloads, Event.payloads_asides ha]

/-- A message that nothing answers is sent. -/
theorem sentPayloads_post (accepting : w.transport.accepting = true) (payload : Json) :
    (w.post payload).2.sentPayloads = w.sentPayloads ++ [payload] := by
  obtain ⟨es, ha, he⟩ := post_adds payload w
  have hnone := Event.payloads_asides ha
  rw [he]
  simp [sentPayloads, accepting, hnone, Event.payload?]

/-- A cancellation that comes while its request is in flight is taken note of. -/
theorem client_dispatch_cancel (run : Runner)
    (cancel : Message.classify v = .ok (.notification "$/cancelRequest" params))
    (reserved : w.client.handlers.notification? "$/cancelRequest" =
      some (.reserved .cancelRequest)) (hid : Message.isId (params.fieldD "id"))
    (nonnull : (params.fieldD "id").isNull = false)
    (inFlight : Client.contains w.client.inFlight (params.fieldD "id") = true) :
    (dispatch run w (.value v)).client =
      { (w.client.addContext "$/cancelRequest" .null false).2 with
        cancelled := Client.insertId (params.fieldD "id") w.client.cancelled } := by
  have hreserved : (w.openContext "$/cancelRequest" .null false).2.client.handlers.notification?
      "$/cancelRequest" = some (.reserved .cancelRequest) := reserved
  have hmarked := Client.markCancelled_eq hid
    (c := (w.openContext "$/cancelRequest" .null false).2.client) inFlight
  simp only [dispatch, cancel, handleMessage, client_logIncoming, handleNotification, hreserved,
    callNotificationHandler, takeReserved, nonnull, Bool.false_eq_true, if_false, hmarked]
  rfl

/-- A request that was in flight when its cancellation came is remembered as cancelled until it is
answered, whatever is done meanwhile, unless the connection is closed. -/
theorem isCancelled_of_cancel {k : Context}
    (cancel : Message.classify v = .ok (.notification "$/cancelRequest" params))
    (reserved : w.client.handlers.notification? "$/cancelRequest" =
      some (.reserved .cancelRequest)) (target : params.fieldD "id" = k.id)
    (came : n < w.client.contexts.length)
    (inFlight : Client.contains w.client.inFlight k.id = true)
    (later : (dispatch run w (.value v)).client.PeerSteps w'.client)
    (unclosed : ¬ (dispatch run w (.value v)).client.MayClose w'.client)
    (outstanding : w'.client.Outstanding n k) : w'.client.isCancelled k.id = true := by
  have hclient := client_dispatch_cancel run cancel reserved (target ▸ outstanding.isId)
    (target ▸ outstanding.nonnull) (target ▸ inFlight)
  rw [target] at hclient
  have hlength : w.client.contexts.length ≤ (dispatch run w (.value v)).client.contexts.length := by
    rw [hclient]
    simp [Client.addContext]
  have hmarked : Client.contains (dispatch run w (.value v)).client.cancelled k.id = true := by
    rw [hclient]
    exact Client.contains_insertId_self outstanding.isId _
  have hflying : Client.contains (dispatch run w (.value v)).client.inFlight k.id = true := by
    rw [hclient]
    exact inFlight
  generalize (dispatch run w (.value v)).client = c₀ at later unclosed hlength hmarked hflying
  have hstill : Client.contains w'.client.inFlight k.id = true := by
    refine (later.inFlight_stays outstanding.isId hflying fun m k' hk hr hsame => ?_).resolve_right
      unclosed
    obtain rfl := outstanding.only.eq hk hr hsame
    obtain rfl := Option.some.inj (hk.symm.trans outstanding.found)
    exact outstanding.unanswered
  have hsole : ¬ w'.client.RequestedFrom c₀.contexts.length k.id := by
    rintro ⟨m, k', hm, hk, hr, hsame⟩
    have hn := outstanding.only.eq hk hr hsame
    omega
  rw [Client.isCancelled, outstanding.nonnull,
    later.cancelled outstanding.isId (fun _ => hmarked) hsole hstill]
  rfl

section Unanswered

variable (found : w.client.context? n = some c) (isRequest : c.isRequest = true)
  (unanswered : c.answered = false) (accepting : w.transport.accepting = true)

include found isRequest unanswered accepting

/-- An answer is the last that was sent. -/
theorem sentPayloads_succeed (value : Json) :
    (w.succeed n value).sentPayloads = w.sentPayloads ++ [(w.answerOf c value).toJson] := by
  rw [succeed_eq found isRequest unanswered]
  exact sentPayloads_post (w := w.updateClient (Client.conclude n c.id)) accepting _

theorem sentPayloads_failWith (e : ResponseError) : (failWith n (.ok e) w).2.sentPayloads =
    w.sentPayloads ++ [(Message.response c.id .null (some e)).toJson] := by
  rw [failWith_eq found isRequest unanswered]
  exact sentPayloads_post (w := w.updateClient (Client.conclude n c.id)) accepting _

/-- A handler that fails is answered for with an internal error, cancelled or not. -/
theorem sentPayloads_handlerFailed (method : String) (f : Fault) :
    (w.handlerFailed n method f).sentPayloads = w.sentPayloads ++
      [(Message.response c.id .null (some (.of .internalError f.report))).toJson] := by
  have hlog := addsAsides_clientLog .error ("Handler for " ++ method ++ " raised") w
  have hasides := sentPayloads_asides hlog
  obtain ⟨es, he, -⟩ := hlog
  unfold handlerFailed
  dsimp only
  generalize w.clientLog .error ("Handler for " ++ method ++ " raised") = w₁ at he hasides
  have hfound : w₁.client.context? n = some c := he ▸ found
  rw [hfound, Option.any_some, unanswered, if_neg Bool.false_ne_true, ← hasides]
  exact sentPayloads_failWith hfound isRequest unanswered (he ▸ accepting) _

end Unanswered

/-- A request that was cancelled while it was in flight is answered as cancelled if its handler
succeeds, whatever is done between the cancellation and the answer, unless the connection is closed.
With an error of the host it gets that one, and if its handler fails it gets an internal error. -/
theorem cancelled_request_answers {k : Context}
    (cancel : Message.classify v = .ok (.notification "$/cancelRequest" params))
    (reserved : w.client.handlers.notification? "$/cancelRequest" =
      some (.reserved .cancelRequest)) (target : params.fieldD "id" = k.id)
    (came : n < w.client.contexts.length)
    (inFlight : Client.contains w.client.inFlight k.id = true)
    (later : (dispatch run w (.value v)).client.PeerSteps w'.client)
    (unclosed : ¬ (dispatch run w (.value v)).client.MayClose w'.client)
    (outstanding : w'.client.Outstanding n k) (accepting : w'.transport.accepting = true) :
    (∀ value, (w'.succeed n value).sentPayloads =
      w'.sentPayloads ++ [(cancelledAnswer k).toJson]) ∧
    (∀ e, (failWith n (.ok e) w').2.sentPayloads =
      w'.sentPayloads ++ [(Message.response k.id .null (some e)).toJson]) ∧
    ∀ method f, (w'.handlerFailed n method f).sentPayloads = w'.sentPayloads ++
      [(Message.response k.id .null (some (.of .internalError f.report))).toJson] := by
  have hcancelled := isCancelled_of_cancel cancel reserved target came inFlight later unclosed
    outstanding
  obtain ⟨found, isRequest, unanswered, -, -, -⟩ := outstanding
  refine ⟨fun value => ?_, sentPayloads_failWith found isRequest unanswered accepting,
    sentPayloads_handlerFailed found isRequest unanswered accepting⟩
  rw [sentPayloads_succeed found isRequest unanswered accepting, answerOf, if_pos hcancelled]

/-- The request is kept, then it is cancelled, and then another one comes before it is answered. -/
theorem cancelled_request_answers_kept :
    let setup : ClientSetup := ⟨.null, .null, [("keep", .plain [.context .defer])], []⟩
    let request (id : Int) : Action := .client (.receive (Frame.encode
      (.obj [("jsonrpc", .str "2.0"), ("id", .int id), ("method", .str "keep")])))
    let cancel : Json := .obj [("jsonrpc", .str "2.0"), ("method", .str "$/cancelRequest"),
      ("params", .obj [("id", .int 1)])]
    let w := (startClient 1 ⟨true, [], .atOnce, false, []⟩ setup).after [request 1]
    let w' := (dispatch (runTo depthLimit) w (.value cancel)).after [request 2]
    ∃ k, w'.client.context? 0 = some k ∧ k.id = .int 1 ∧
      (w'.succeed 0 (.str "done")).sentPayloads = w'.sentPayloads ++ [(cancelledAnswer k).toJson] ∧
      ∀ e, (failWith 0 (.ok e) w').2.sentPayloads =
        w'.sentPayloads ++ [(Message.response k.id .null (some e)).toJson] := by
  intro setup request cancel w w'
  have hcancel : Message.classify cancel =
      .ok (.notification "$/cancelRequest" (.obj [("id", .int 1)])) := rfl
  have hlookup : w.client.handlers.notifications.lookup "$/cancelRequest" = none :=
    Option.isNone_iff_eq_none.1 (by decide +kernel)
  have hreserved : w.client.handlers.notification? "$/cancelRequest" =
      some (.reserved .cancelRequest) := by
    unfold Handlers.notification?
    rw [hlookup]
    rfl
  have hpending : w.client.pending = [] := List.isEmpty_iff.1 (by decide +kernel)
  have hs : Conduct.any.free.Sound w := Begins.sound (.client 1) [request 1]
  have hlead : Leads Conduct.any.free w (dispatch (runTo depthLimit) w (.value cancel)) :=
    leads_dispatch (steady_runTo depthLimit) _ (by simp [hpending])
  have hlater := peerSteps_after ((hlead.steps hs).sound hs) [request 2]
  have hunclosed : ¬ (dispatch (runTo depthLimit) w (.value cancel)).client.MayClose w'.client :=
    fun h => by
      have hflying : Client.contains w'.client.inFlight (.int 1) = true := by decide +kernel
      rw [h.not_inFlight (by decide +kernel)] at hflying
      cases hflying
  obtain ⟨k, hfound⟩ : ∃ k, w'.client.context? 0 = some k :=
    Option.isSome_iff_exists.1 (by decide +kernel)
  have hfields : (w'.client.context? 0).all fun k =>
      k.isRequest && !k.answered && Message.isId k.id && (Json.int 1).same k.id := by
    decide +kernel
  simp only [hfound, Option.all_some, Bool.and_eq_true, Bool.not_eq_true'] at hfields
  obtain ⟨⟨⟨hrequest, hunanswered⟩, hid⟩, hsame⟩ := hfields
  have hone : Json.int 1 = k.id := (Message.same_iff_of_isId rfl hid).1 hsame
  have houtstanding : w'.client.Outstanding 0 k :=
    ⟨hfound, hrequest, hunanswered, hid, hone ▸ rfl, hone ▸ (by decide +kernel)⟩
  obtain ⟨hsucceed, hfail, -⟩ := cancelled_request_answers hcancel hreserved hone
    (by decide +kernel) (hone ▸ (by decide +kernel)) hlater hunclosed houtstanding
    (by decide +kernel)
  exact ⟨k, hfound, hone.symm, hsucceed _, hfail⟩

/-- A request that is cancelled after its handler has kept it gets the error of the host, and one
that is cancelled while its handler runs gets an internal error when that fails. -/
theorem cancelled_request_other_errors :
    let cancel (id : Int) : Action := .client (.receive (Frame.encode (.obj
      [("jsonrpc", .str "2.0"), ("method", .str "$/cancelRequest"),
        ("params", .obj [("id", .int id)])])))
    let request (id : Int) (method : String) : Action := .client (.receive (Frame.encode
      (.obj [("jsonrpc", .str "2.0"), ("id", .int id), ("method", .str method)])))
    let setup : ClientSetup := ⟨.null, .null, [("keep", .plain [.context .defer]),
      ("fail", .plain [cancel 2, .raise (.raised .value "no")])], []⟩
    let w := (startClient 1 ⟨true, [], .atOnce, false, []⟩ setup).after
      [request 1 "keep", cancel 1, .within 0 (.context (.reject (.int 7) (.str "no") none)),
        request 2 "fail"]
    w.sentPayloads.map (fun payload => (Json.line .spaced (payload.fieldD "id"),
      Json.line .spaced ((payload.fieldD "error").fieldD "code"))) =
        [("1", "7"), ("2", "-32603")] := by
  decide +kernel

end World

end GhostText
