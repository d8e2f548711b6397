import GhostText.Proofs.Run.Answering

/-!
# What the client does for its peer

A message of the peer is kept, acted on, and perhaps answered. What the client keeps of such
messages changes meanwhile, and answers and asides are added to the events; the calls, the handlers
and the bytes that are still to be read stay as they are, and so does all that is outside the
client. Besides that a message of the peer can only have the script of a handler run, or give the
status of the server.
-/

namespace GhostText

namespace World

/-- Nothing changes but what is kept of the peer's messages, and what is sent are answers. -/
structure Replies (w w' : World) : Prop where
  calls : w'.client.calls = w.client.calls
  pending : w'.client.pending = w.client.pending
  handlers : w'.client.handlers = w.client.handlers
  reader : w'.client.reader = w.client.reader
  rest : w' = { w with client := w'.client, events := w'.events }
  events : ∃ es, w'.events = w.events ++ es ∧
    ∀ e ∈ es, e.isAside ∨ ∃ id result error, e = .sent (Message.response id result error).toJson

variable {w w' w'' : World}

namespace Replies

theorem refl (w : World) : w.Replies w := ⟨rfl, rfl, rfl, rfl, rfl, [], by simp, by simp⟩

theorem trans (h : w.Replies w') (h' : w'.Replies w'') : w.Replies w'' := by
  obtain ⟨es, he, hes⟩ := h.events
  obtain ⟨es', he', hes'⟩ := h'.events
  refine ⟨h'.calls.trans h.calls, h'.pending.trans h.pending, h'.handlers.trans h.handlers,
    h'.reader.trans h.reader, ?_, es ++ es', ?_, List.forall_mem_append.2 ⟨hes, hes'⟩⟩
  · conv_lhs => rw [h'.rest, h.rest]
  · rw [he', he, List.append_assoc]

end Replies

theorem AddsAsides.replies (h : w.AddsAsides w') : w.Replies w' := by
  obtain ⟨es, rfl, asides⟩ := h
  exact ⟨rfl, rfl, rfl, rfl, rfl, es, rfl, fun e he => .inl (asides e he)⟩

theorem replies_clientLog (level : LogLevel) (text : String) (w : World) :
    w.Replies (w.clientLog level text) :=
  (addsAsides_clientLog ..).replies

/-- A change of the client that concerns neither the calls nor the handlers nor the reader. -/
theorem replies_client {c : Client} (calls : c.calls = w.client.calls)
    (pending : c.pending = w.client.pending) (handlers : c.handlers = w.client.handlers)
    (reader : c.reader = w.client.reader) : w.Replies { w with client := c } :=
  ⟨calls, pending, handlers, reader, rfl, [], (List.append_nil _).symm, by simp⟩

/-! ## Answers -/

theorem replies_conclude (n : Nat) (id : Json) (w : World) :
    w.Replies (w.updateClient (Client.conclude n id)) := by
  rw [updateClient, Client.conclude, Client.consumeCancelled_eq]
  exact replies_client rfl rfl rfl rfl

theorem replies_post (id result : Json) (error : Option ResponseError) (w : World) :
    w.Replies (w.post (Message.response id result error).toJson).2 := by
  obtain ⟨es, asides, he⟩ := post_adds (Message.response id result error).toJson w
  rw [he]
  refine ⟨rfl, rfl, rfl, rfl, rfl, _, rfl, List.forall_mem_append.2
    ⟨fun e he => ?_, fun e he => .inl (asides e he)⟩⟩
  split at he
  · exact .inr ⟨id, result, error, List.mem_singleton.1 he⟩
  · cases he

theorem replies_succeed (n : Nat) (value : Json) (w : World) : w.Replies (w.succeed n value) := by
  obtain hasides | ⟨c, -, -, -, he⟩ := succeed_cases n value w
  · exact hasides.replies
  · rw [he]
    refine (replies_conclude n c.id w).trans ?_
    unfold answerOf
    split
    · exact replies_post ..
    · exact replies_post ..

theorem replies_failWith (n : Nat) (error : Except Fault ResponseError) (w : World) :
    w.Replies (failWith n error w).2 := by
  obtain hasides | ⟨c, -, -, -, ⟨e, -, he⟩ | he⟩ := failWith_cases n error w
  · exact hasides.replies
  · exact he ▸ (replies_conclude ..).trans (replies_post ..)
  · exact he ▸ replies_conclude ..

/-- What a script does with a message, unless it keeps the message or sends one of its own, is done
for the peer. -/
theorem performContext_cases (run : Runner) (n : Nat) (a : ContextAction) (w : World) :
    w.Replies (performContext run n a w).2 ∨ a = .defer ∨ ∃ m, a = .send m := by
  cases a with
  | succeed value => exact .inl (replies_succeed ..)
  | reject code message data => exact .inl (replies_failWith ..)
  | suppressLogging => exact .inl (replies_client rfl rfl rfl rfl)
  | defer => exact .inr (.inl rfl)
  | log level text => exact .inl (replies_clientLog ..)
  | send m => exact .inr (.inr ⟨m, rfl⟩)
  | view =>
    unfold performContext
    dsimp only
    split
    · exact .inl (.refl w)
    · exact .inl (addsAsides_record rfl w).replies

/-! ## Requests -/

theorem replies_openContext (method : String) (id : Json) (isRequest : Bool) (w : World) :
    w.Replies (w.openContext method id isRequest).2 :=
  replies_client rfl rfl rfl rfl

theorem replies_openRequest (id : Json) (w : World) :
    w.Replies (w.updateClient fun c => c.openRequest id) :=
  replies_client rfl rfl rfl rfl

/-- Changing what is registered is no reply of its own; the answer is. -/
theorem replies_changeRegistrations (n : Nat)
    (change : Registrations → Except Fault Registrations) (w : World) :
    w.Replies (changeRegistrations n change w).2 := by
  unfold changeRegistrations
  split
  · exact .refl w
  · next rs _ =>
    have hclient : w.Replies (w.updateClient fun c => { c with registrations := rs }) :=
      replies_client rfl rfl rfl rfl
    exact hclient.trans (replies_succeed ..)

theorem replies_handlerFailed (n : Nat) (method : String) (f : Fault) (w : World) :
    w.Replies (w.handlerFailed n method f) := by
  unfold handlerFailed
  dsimp only
  split
  · exact replies_clientLog ..
  · exact (replies_clientLog ..).trans (replies_failWith ..)

/-- A request is served by the client alone, or the script of its handler is run in between. -/
theorem handleRequest_cases (run : Runner) (n : Nat) (id : Json) (method : String) (params : Json)
    (w : World) : w.Replies (handleRequest run n id method params w) ∨
      ∃ kind script w₁, w.client.handlers.request? method = some (.user kind (some script)) ∧
        w.Replies w₁ ∧
        (run (.script (some n) script) w₁).2.Replies (handleRequest run n id method params w) := by
  have hopen := replies_openRequest id w
  have hended : ∀ r : Except Fault Unit × World, r.2.Replies (match r with
      | (.ok _, w) => w
      | (.error f, w) => w.handlerFailed n method f) := by
    rintro ⟨_ | _, w₁⟩
    · exact replies_handlerFailed ..
    · exact .refl w₁
  unfold handleRequest
  cases w.client.handlers.request? method with
  | none =>
    dsimp only
    split
    · exact .inl (replies_failWith ..)
    · exact .inl (replies_clientLog ..)
  | some h =>
    cases h with
    | user kind script =>
      cases script with
      | none => exact .inl (hopen.trans (replies_handlerFailed ..))
      | some script =>
        exact .inr ⟨kind, script, _, rfl, hopen.trans (addsAsides_record rfl _).replies, hended _⟩
    | reserved r =>
      refine .inl (hopen.trans (Replies.trans ?_ (hended _)))
      cases r <;> exact replies_changeRegistrations ..

/-! ## Notifications -/

theorem replies_suppressLogging (n : Nat) (w : World) : w.Replies (w.suppressLogging n) :=
  replies_client rfl rfl rfl rfl

/-- What the protocol itself does with a notification is no more than an aside. -/
theorem replies_takeReserved (n : Nat) (params : Json) (r : ReservedNotification) (w : World) :
    w.Replies (takeReserved n params r w).2 := by
  cases r with
  | cancelRequest =>
    unfold takeReserved
    dsimp only
    split
    · exact .refl w
    · split
      · exact .refl w
      · next c marked =>
        rw [(Client.context?_of_markCancelled marked).1]
        exact replies_client rfl rfl rfl rfl
  | progress => exact (addsAsides_record rfl w).replies
  | logTrace => exact replies_clientLog ..
  | logMessage =>
    unfold takeReserved
    dsimp only
    split
    · exact replies_suppressLogging n w
    · exact (replies_suppressLogging n w).trans (replies_clientLog ..)

theorem replies_takeServerLog (n : Nat) (params : Json) (w : World) :
    w.Replies (w.takeServerLog n params) :=
  (replies_suppressLogging n w).trans (replies_clientLog ..)

/-- A notification is taken by the client alone, or the script of its handler is run in between, or
it gives the status of the server. -/
theorem handleNotification_cases (run : Runner) (n : Nat) (method : String) (params : Json)
    (w : World) : w.Replies (handleNotification run n method params w) ∨
      (∃ script w₁, w.client.handlers.notification? method = some (.user (.script script)) ∧
        w.Replies w₁ ∧
        (run (.script (some n) script) w₁).2.Replies (handleNotification run n method params w)) ∨
      (w.client.handlers.notification? method = some (.user .serverStatus) ∧
        ∃ s, handleNotification run n method params w =
          (changeStatus run s w).signal (.notificationReceived method params)) := by
  have hsignal : ∀ w : World, w.Replies (w.signal (.notificationReceived method params)) :=
    fun w => (addsAsides_record rfl w).replies
  have hended : ∀ r : Except Fault Unit × World, r.2.Replies (World.signal
      (.notificationReceived method params) (match r with
        | (.ok _, w) => w
        | (.error _, w) => w.clientLog .error ("Handler for " ++ method ++ " raised"))) := by
    rintro ⟨_ | _, w₁⟩
    · exact (replies_clientLog ..).trans (hsignal _)
    · exact hsignal w₁
  unfold handleNotification
  cases w.client.handlers.notification? method with
  | none => exact .inl (hsignal w)
  | some h =>
    cases h with
    | reserved r => exact .inl ((replies_takeReserved ..).trans (hended _))
    | user e =>
      cases e with
      | script script =>
        exact .inr (.inl ⟨script, _, rfl, (addsAsides_record rfl w).replies, hended _⟩)
      | serverLog => exact .inl ((replies_takeServerLog ..).trans (hsignal _))
      | serverStatus =>
        dsimp only [callNotificationHandler, takeServerStatus]
        split
        · exact .inr (.inr ⟨rfl, _, rfl⟩)
        · exact .inl ((replies_clientLog ..).trans (hsignal _))
      | notCallable => exact .inl ((replies_clientLog ..).trans (hsignal _))
      | reserved => exact .inl (hsignal w)

theorem replies_logIncoming (n : Nat) (v : Json) (w : World) : w.Replies (w.logIncoming n v) := by
  unfold logIncoming
  split
  · exact .refl w
  · exact (addsAsides_logTraffic ..).replies

end World

end GhostText
