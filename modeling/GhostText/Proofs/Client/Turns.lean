import GhostText.Proofs.Client.Serving

/-!
# Runs of requests

Messages come, the host answers what it has kept, and the connection is closed, in any order. What
is kept of the messages agrees with what was sent after every turn, and so after every run.
-/

namespace GhostText

inductive Turn where
  /-- A message comes, or what should be one. -/
  | message (b : Frame.Body)
  /-- The host acts on messages it has kept. -/
  | host (a : Action)
  | close

namespace Turn

def perform : Turn → World → World
  | .message b => fun w => World.dispatch (World.runTo World.depthLimit) w b
  | .host a => fun w => (World.act a w).2
  | .close => World.closeClient

/-- Whether a turn may be taken: the host does nothing but answer the peer, and no request comes
under the identifier of an open one. -/
def Fits (w : World) : Turn → Prop
  | .message b => w.client.admits b = true
  | .host a => Conduct.serving.Allows a
  | .close => True

end Turn

namespace World

def afterTurns (turns : List Turn) (w : World) : World := turns.foldl (fun w t => t.perform w) w

def Proceeds : List Turn → World → Prop
  | [], _ => True
  | t :: rest, w => t.Fits w ∧ (t.perform w).Proceeds rest

/-- How many messages had come when the connection was closed last. -/
def closedAt : List Turn → (start : Nat) → World → Nat
  | [], start, _ => start
  | .close :: rest, _, w => closedAt rest w.client.contexts.length w.closeClient
  | t :: rest, start, w => closedAt rest start (t.perform w)

variable {w w' : World} {base : Nat} {replies : List (Nat × Json)}

/-- All that is kept of the messages of the peer agrees with what was sent. -/
structure Tallies (accepting : Bool) (base : Nat) (replies : List (Nat × Json)) (w : World) :
    Prop where
  serving : w.Serving
  inbox : w.client.Inbox base replies
  accepts : w.transport.accepting = accepting
  sent : w.sentPayloads = if accepting then replies.map Prod.snd else []

theorem Tallies.attends {accepting : Bool} (h : w.Tallies accepting base replies)
    (ha : w.Attends w') : ∃ replies, w'.Tallies accepting base replies := by
  obtain ⟨told, hserves⟩ := ha
  refine ⟨replies ++ told, hserves.serving h.serving, hserves.steps.inbox h.inbox,
    by rw [hserves.transport, h.accepts], ?_⟩
  rw [hserves.sent, h.sent, h.accepts]
  cases accepting <;> simp

/-- Closing forgets the requests before it, so those behind it are counted anew. -/
theorem Tallies.closeClient {accepting : Bool} (h : w.Tallies accepting base replies) :
    w.closeClient.Tallies accepting w.client.contexts.length replies := by
  have hclosed : w.closeClient = w.updateClient Client.disconnect := by
    rw [World.closeClient, h.serving.pending, List.length_nil, if_pos rfl]
  rw [hclosed]
  exact ⟨⟨rfl, h.serving.subscriptions, h.serving.handlers, h.serving.deferred⟩,
    h.inbox.disconnect, h.accepts, h.sent⟩

/-- What was kept agrees with what was sent after every turn, if it did so before. -/
theorem Tallies.turn {accepting : Bool} (h : w.Tallies accepting base replies) {t : Turn}
    (ht : t.Fits w) : ∃ replies, (t.perform w).Tallies accepting (closedAt [t] base w) replies := by
  cases t with
  | message b => exact h.attends (attends_dispatch (serves_runTo _) h.serving ht)
  | host a => exact h.attends (attends_perform _ ht h.serving (by simp))
  | close => exact ⟨_, h.closeClient⟩

/-- After any turns requests and answers agree, counted from where the connection was last
closed. -/
theorem Tallies.afterTurns {accepting : Bool} {turns : List Turn}
    (h : w.Tallies accepting base replies) (ht : w.Proceeds turns) :
    ∃ replies, (w.afterTurns turns).Tallies accepting (closedAt turns base w) replies := by
  induction turns generalizing w base replies with
  | nil => exact ⟨_, h⟩
  | cons t turns ih =>
    obtain ⟨replies, hturn⟩ := h.turn ht.1
    have hrest := ih hturn ht.2
    cases t <;> exact hrest

/-! ## The beginning -/

structure Unaddressed (w : World) : Prop where
  contexts : w.client.contexts = []
  inFlight : w.client.inFlight = []
  cancelled : w.client.cancelled = []

theorem Unaddressed.withHandlers (h : w.Unaddressed) (setup : ClientSetup) :
    (w.withHandlers setup).Unaddressed := by
  refine withHandlers_keeps (fun e _ w h => ?_) (fun _ _ w h =>
    ⟨h.contexts, h.inFlight, h.cancelled⟩) h
  obtain ⟨w₁, ⟨es, rfl, -⟩, he⟩ := handleRequests_eq e.1 e.2 w
  rw [he]
  exact ⟨h.contexts, h.inFlight, h.cancelled⟩

theorem Begins.unaddressed {t : Transport} {setup : ClientSetup} (h : Begins t setup w) :
    w.Unaddressed :=
  h.keeps (fun _ _ _ => ⟨rfl, rfl, rfl⟩) (fun _ _ => ⟨rfl, rfl, rfl⟩)
    (fun _ h => h.withHandlers setup) (fun _ _ h => ⟨h.contexts, h.inFlight, h.cancelled⟩)
    (fun _ _ _ _ _ h => ⟨h.contexts, h.inFlight, h.cancelled⟩)
    fun _ _ h => ⟨h.contexts, h.inFlight, h.cancelled⟩

/-- At the beginning of a run nothing was kept and nothing was sent. -/
theorem Begins.tallies {t : Transport} {setup : ClientSetup} (h : Begins t setup w)
    (hs : Conduct.serving.Equips setup) : w.Tallies t.accepting 0 [] := by
  have hfresh := h.fresh hs
  have hnew := h.unaddressed
  have hnone : ∀ n, w.client.context? n = none := fun n => by
    simp [Client.context?, hnew.contexts]
  have hclosed : ∀ n, ¬ w.client.isOpen n := fun n => by simp [Client.isOpen, hnone]
  have hsent : w.sentPayloads = [] := Event.payloads_asides hfresh.asides
  refine ⟨⟨hfresh.pending, hfresh.subscriptions, hfresh.handlers, ?_⟩, ?_, by rw [hfresh.transport],
    by simp [hsent]⟩
  · simp [hfresh.host, Host.start]
  · exact {
      ids := by simp [hnone]
      alone := fun m _ hm => absurd hm (hclosed m)
      nodup := List.nodup_nil
      answered := by simp [hnone]
      replies := by simp
      attended := by simp [hnone]
      base_le := Nat.zero_le _
      inFlight := by simp [hnew.inFlight, Client.openIds, Client.openFrom, hnew.contexts]
      cancelled := by simp [hnew.cancelled] }

/-- However requests come, are cancelled and are answered, every one has one answer at most, and
under its own identifier; what is in flight are those that were handed to a handler since the
connection was closed last and are not answered, and only those are remembered as cancelled. A
request is answered by the end of its dispatch if its handler fails, and also if it has none but its
method is reserved; without a handler another one is never answered. A request counts as open until
it is answered, also if the connection is closed meanwhile. -/
theorem requests_answered_once {t : Transport} {setup : ClientSetup} {turns : List Turn}
    (begins : Begins t setup w) (handlers : Conduct.serving.Equips setup)
    (proceeds : w.Proceeds turns) :
    let w' := w.afterTurns turns
    (∃ replies : List (Nat × Json), (replies.map Prod.fst).Nodup ∧
      (∀ n, n ∈ replies.map Prod.fst ↔
        ∃ k, w'.client.context? n = some k ∧ k.isRequest = true ∧ k.answered = true) ∧
      (∀ r ∈ replies, ∃ k result error, w'.client.context? r.1 = some k ∧
        r.2 = (Message.response k.id result error).toJson) ∧
      w'.sentPayloads = if t.accepting then replies.map Prod.snd else []) ∧
    (∀ id, Client.contains w'.client.inFlight id = true ↔
      ∃ n, closedAt turns 0 w ≤ n ∧ w'.client.isOpen n ∧ id.same (w'.client.idOf n)) ∧
    (∀ i ∈ w'.client.cancelled, Client.contains w'.client.inFlight i = true) ∧
    (∀ n k, w'.client.context? n = some k → k.isRequest = true →
      w'.client.handlers.request? k.method = none → isReserved k.method = false →
      k.answered = false) ∧
    ∀ v id method params, Message.classify v = .ok (.request id method params) →
      w'.client.admits (.value v) = true →
      ∃ k, (dispatch (runTo depthLimit) w' (.value v)).client.context?
          w'.client.contexts.length = some k ∧ k.id = id ∧ k.isRequest = true ∧
        match w'.client.handlers.request? method with
        | none => k.answered = isReserved method
        | some h => ∀ f, (callRequestHandler (runTo depthLimit) w'.client.contexts.length method
            params id h (w'.handed method id)).1 = .error f → k.answered = true := by
  intro w'
  obtain ⟨replies, htallies⟩ := (begins.tallies handlers).afterTurns proceeds
  have hinbox := htallies.inbox
  refine ⟨⟨replies, hinbox.nodup, hinbox.answered, hinbox.replies, htallies.sent⟩, fun id => ?_,
    fun i hi => (hinbox.cancelled i hi).2, fun n k hk hr hnone hreserved => ?_,
    fun v id method params hm admitted =>
      answered_dispatch (serves_runTo _) htallies.serving hm admitted⟩
  · rw [hinbox.inFlight, Client.contains, List.any_eq_true]
    simp only [Client.openIds, List.mem_map, Client.mem_openFrom]
    constructor
    · rintro ⟨_, ⟨n, ⟨hbase, hopen⟩, rfl⟩, hsame⟩
      exact ⟨n, hbase, hopen, hsame⟩
    · rintro ⟨n, hbase, hopen, hsame⟩
      exact ⟨_, ⟨n, ⟨hbase, hopen⟩, rfl⟩, hsame⟩
  · rw [Bool.eq_false_iff]
    intro ha
    rcases hinbox.attended n k hk hr ha with h | h
    · change (w'.client.handlers.request? k.method).isSome = true at h
      rw [hnone] at h
      cases h
    · rw [hreserved] at h
      cases h

/-- One request is kept, cancelled and answered twice, the handler of another one fails, a third one
has a reserved method and no handler, and a fourth one is left alone. -/
theorem requests_answered_once_each_way :
    let t : Transport := ⟨true, [], .atOnce, false, []⟩
    let setup : ClientSetup := ⟨.null, .null,
      [("keep", .plain [.context .defer]), ("fail", .plain [.raise (.raised .value "no")])], []⟩
    let request (id : Int) (method : String) : Turn := .message (.value
      (.obj [("jsonrpc", .str "2.0"), ("id", .int id), ("method", .str method)]))
    let reply : Turn := .host (.within 0 (.context (.succeed (.str "done"))))
    let cancel : Turn := .message (.value (.obj [("jsonrpc", .str "2.0"),
      ("method", .str "$/cancelRequest"), ("params", .obj [("id", .int 1)])]))
    let turns := [request 1 "keep", request 2 "fail", cancel, reply, reply, request 1 "keep",
      request 3 "$/mystery", request 4 "mystery"]
    let w := startClient 1 t setup
    (∃ replies : List (Nat × Json), (replies.map Prod.fst).Nodup ∧ replies.length = 3 ∧
      (w.afterTurns turns).sentPayloads = replies.map Prod.snd) ∧
    Client.contains (w.afterTurns turns).client.inFlight (.int 1) = true := by
  intro t setup request reply cancel turns w
  have hequips : Conduct.serving.Equips setup := fun h hh a ha => by
    have hserves : ∀ h ∈ setup.requests ++ setup.notifications, ∀ a ∈ h.2.script,
        a.serves && a.inner.isEmpty := by decide
    exact Conduct.allows_ofKind (hserves h hh a ha)
  have hreply : Conduct.serving.Allows (.within 0 (.context (.succeed (.str "done")))) :=
    Conduct.allows_within rfl (Conduct.allows_ofKind rfl)
  have hproceeds : w.Proceeds turns :=
    ⟨show Client.admits _ _ = true by decide +kernel,
      show Client.admits _ _ = true by decide +kernel,
      show Client.admits _ _ = true by decide +kernel, hreply, hreply,
      show Client.admits _ _ = true by decide +kernel,
      show Client.admits _ _ = true by decide +kernel,
      show Client.admits _ _ = true by decide +kernel, trivial⟩
  have honce := requests_answered_once (w := w) (.client 1) hequips hproceeds
  obtain ⟨⟨replies, hnodup, -, -, hsent⟩, hinFlight, -⟩ := honce
  have hlength : (w.afterTurns turns).sentPayloads.length = 3 := by decide +kernel
  have hopen : ∃ n, closedAt turns 0 w ≤ n ∧ (w.afterTurns turns).client.isOpen n ∧
      (Json.int 1).same ((w.afterTurns turns).client.idOf n) :=
    ⟨3, by decide +kernel, by decide +kernel, by decide +kernel⟩
  refine ⟨⟨replies, hnodup, ?_, hsent⟩, (hinFlight (.int 1)).2 hopen⟩
  rw [hsent] at hlength
  exact (List.length_map ..).symm.trans hlength

end World

end GhostText
