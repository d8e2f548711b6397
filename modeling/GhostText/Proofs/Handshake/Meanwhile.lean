import GhostText.Proofs.Handshake.Advancing

/-!
# What goes on beside a handshake

The operations that hand over no message of a handshake and settle no call. Those that run scripts
abide by one, given that whatever is run does.
-/

namespace GhostText

variable {k : Conduct} {g : Greeting} {run : Runner}

/-! ## Messages -/

namespace Message

@[simp] theorem greeting?_request (id : Json) (method : String) (params : Json) :
    (request id method params).toJson.greeting? =
      if Handshake.isGreeting method then some method else none := rfl

@[simp] theorem greeting?_notification (method : String) (params : Json) :
    (notification method params).toJson.greeting? =
      if Handshake.isGreeting method then some method else none := rfl

/-- No answer is a message of a handshake. -/
@[simp] theorem greeting?_response (id result : Json) (error : Option ResponseError) :
    (response id result error).toJson.greeting? = none := by
  cases error <;> rfl

end Message

namespace World

variable {w w' : World}

/-- Whatever is recorded but a message or a callback of a handshake is no business of it. -/
theorem aside_record {e : Event} (written : e.greeting? = none)
    (heard : ∀ x, e.callback? = some x → x.1 ∉ g.labels) (w : World) :
    Aside k g w (w.record e) :=
  (adds_record e w).aside (by simp [written]) (by simpa using heard)

theorem aside_note {e : Event} (h : e.isAside) (w : World) : Aside k g w (w.record e) :=
  (addsAsides_record h w).aside

theorem aside_clientLog (level : LogLevel) (text : String) (w : World) :
    Aside k g w (w.clientLog level text) :=
  (addsAsides_clientLog ..).aside

theorem aside_afterWrite (payload : Json) (r : Bool × World) :
    Aside k g r.2 (afterWrite payload r).2 :=
  (addsAsides_afterWrite ..).aside

theorem aside_transmit {payload : Json} (h : payload.greeting? = none) (w : World) :
    Aside k g w (w.transmit payload).2 := by
  unfold transmit
  split
  · exact aside_record (e := .sent payload) h (by simp [Event.callback?]) w
  · exact .refl w

/-- Any message but those of a handshake may be sent meanwhile. -/
theorem aside_post {payload : Json} (h : payload.greeting? = none) (w : World) :
    Aside k g w (w.post payload).2 :=
  (aside_transmit h w).trans (aside_afterWrite ..)

theorem aside_notify {method : String} (h : Handshake.isGreeting method = false) (params : Json)
    (w : World) : Aside k g w (w.notify method params) :=
  aside_post (by simp [h]) w

@[simp] theorem client_transmit (payload : Json) (w : World) :
    (w.transmit payload).2.client = w.client := by
  unfold transmit
  split <;> rfl

/-- Whatever is handed to the transport, the handshake is where it was. -/
theorem Reached.transmit {p : Greeting.Progress} (h : w.Reached k g p) (payload : Json) :
    (w.transmit payload).2.Reached k g p := by
  unfold World.transmit
  split
  · exact h.congr rfl rfl (by simp [World.heard, callbacks, record, Event.callback?])
  · exact h

/-- A change of the client that concerns neither the calls nor the handlers. -/
theorem aside_client {c : Client} (calls : c.calls = w.client.calls)
    (pending : c.pending = w.client.pending) (handlers : c.handlers = w.client.handlers) :
    Aside k g w { w with client := c } :=
  ⟨calls, pending, fun h => by rwa [handlers], fun h => h, rfl, rfl⟩

theorem aside_updateHost {f : Host → Host} (hf : (f w.host).subscribers = w.host.subscribers) :
    Aside k g w (w.updateHost f) :=
  ⟨rfl, rfl, fun h => h, fun h => by simpa only [updateHost, hf] using h, rfl, rfl⟩

theorem aside_updateAssistant (f : Assistant → Assistant) (w : World) :
    Aside k g w (w.updateAssistant f) :=
  ⟨rfl, rfl, fun h => h, fun h => h, rfl, rfl⟩

/-- What is done for the peer is beside the handshake. -/
theorem Replies.aside (h : w.Replies w') : Aside k g w w' := by
  obtain ⟨es, he, replies⟩ := h.events
  have greeting : ∀ e ∈ es, e.greeting? = none := fun e hm => by
    obtain asides | ⟨id, result, error, rfl⟩ := replies e hm
    · exact Event.greeting?_of_isAside asides
    · exact Message.greeting?_response id result error
  have callback : ∀ e ∈ es, e.callback? = none := fun e hm => by
    obtain asides | ⟨id, result, error, rfl⟩ := replies e hm
    · exact Event.callback?_of_isAside asides
    · rfl
  refine ⟨h.calls, h.pending, fun hk => h.handlers ▸ hk, fun hk => ?_, ?_, ?_⟩
  · rw [h.rest]
    exact hk
  · simp only [World.written, he, List.filterMap_append, List.filterMap_eq_nil_iff.2 greeting,
      List.append_nil]
  · simp only [World.heard, callbacks, he, List.filterMap_append,
      List.filterMap_eq_nil_iff.2 callback, List.append_nil]

theorem aside_feed (bytes : List UInt8) (w : World) : Aside k g w (w.feed bytes) := by
  have hreader : Aside k g w
      (w.updateClient fun c => { c with reader := (w.client.reader.feed bytes).reader }) :=
    aside_client rfl rfl rfl
  exact hreader.trans (addsAsides_feed bytes w).aside

/-! ## What the host tells the server -/

theorem aside_didOpen (uri languageId version text : Json) (w : World) :
    Aside k g w (didOpen uri languageId version text w).2 := by
  unfold didOpen
  split
  · exact .refl w
  · exact aside_notify rfl _ w

theorem aside_didChange (uri version changes : Json) (w : World) :
    Aside k g w (didChange uri version changes w).2 := by
  unfold didChange
  split
  · exact .refl w
  · exact .refl w
  · exact aside_notify rfl _ w

theorem aside_didChangeFolders (added removed : Json) (w : World) :
    Aside k g w (didChangeFolders added removed w).2 := by
  unfold didChangeFolders
  split
  · exact .refl w
  · exact .refl w
  · exact aside_notify rfl _ w

theorem aside_changeVersion (uri changes : Json) (w : World) :
    Aside k g w (changeVersion uri changes w).2 := by
  rw [snd_changeVersion]
  exact (aside_updateAssistant ..).trans (aside_didChange ..)

/-! ## The handlers and the subscribers -/

/-- Handlers may be changed as long as their scripts may be run. -/
theorem abides_handlers {hs : Handlers} (h : k.Handles w.client.handlers → k.Handles hs) :
    Abides k g w (w.updateClient fun c => { c with handlers := hs }) :=
  Aside.abides ⟨rfl, rfl, h, fun h => h, rfl, rfl⟩

theorem abides_handleRequests (method : String) {spec : HandlerSpec Action}
    (hs : k.AllowsAll spec.script) (w : World) :
    Abides k g w (w.handleRequests method spec) := by
  obtain ⟨w₁, hlogged, he⟩ := handleRequests_eq method spec w
  rw [he]
  refine .of_reached fun p hp => hlogged.aside.abides.trans (abides_handlers fun _ => ?_)
  exact handles_setRequest hp.client.handlers method hs

theorem aside_nameSubscriber (label : String) {s : Script} (hs : k.AllowsAll s) (w : World) :
    Aside k g w (w.nameSubscriber label s) where
  calls := rfl
  pending := rfl
  handlers h := h
  subscribers h := forall_nameSubscriber h hs label
  written := rfl
  heard := rfl

/-! ## The end of a connection -/

/-- Where calls may be given up the end of a connection leaves a handshake where it is. -/
theorem abides_closeClient (hk : ¬ k.Patient) (w : World) : Abides k g w w.closeClient := by
  obtain ⟨w₀, asides, he⟩ := closeClient_eq w
  exact he ▸ asides.aside.abides.trans (abides_disconnect hk)

/-- Where calls may be given up, giving one up leaves a handshake where it is. -/
theorem abides_cancelCall (hk : ¬ k.Patient) (id : Nat) (w : World) :
    Abides k g w (cancelCall id w).2 := by
  unfold cancelCall
  cases hc : w.client.call? id with
  | none => exact .refl w
  | some c =>
    dsimp only
    split
    · exact .refl w
    · next hp =>
      exact (abides_cancel hk hc (by simpa using hp)).trans (aside_notify rfl _ _).abides

theorem abides_cancelRequest (hk : ¬ k.Patient) (id : Json) (w : World) :
    Abides k g w (cancelRequest id w).2 := by
  unfold cancelRequest
  cases id.toInteger with
  | error f => exact .refl w
  | ok n =>
    dsimp only
    cases w.client.pendingFor? (.int n) with
    | none => exact .refl w
    | some p => exact abides_cancelCall hk p.id w

/-! ## Scripts and callbacks -/

theorem Abides.tell {w₀ : World} {x : Act World Unit} (h : Abides k g w₀ (x w).2) :
    Abides k g w₀ (w.tell x) :=
  h.trans (addsAsides_tell x w).aside.abides

/-- Whether or not a callback fails, what it did abides. -/
theorem Abides.callBack {w₀ : World} {x : Act World Unit} (h : Abides k g w₀ (x w).2) :
    Abides k g w₀ (w.callBack x) :=
  h.trans (addsAsides_callBack x w).aside.abides

section Running

variable (hr : run.Abides k g)

include hr

/-- What is handed over has been handed over; what is answered meanwhile abides by the handshake. -/
theorem abides_transmitted (payload : Json) (w : World) :
    Abides k g (w.transmit payload).2 (send run payload w).2 := by
  obtain ⟨w₁, asides, hw₁⟩ := send_cases run payload w
  refine Abides.trans ?_ asides.aside.abides
  rcases hw₁ with rfl | ⟨answer, -, rfl | rfl⟩
  · exact .refl _
  · exact Aside.abides ⟨rfl, rfl, fun h => h, fun h => h, rfl, rfl⟩
  · exact .tell (hr _ _ trivial)

/-- A message that is no greeting may be answered as it is written. -/
theorem abides_send {payload : Json} (h : payload.greeting? = none) (w : World) :
    Abides k g w (send run payload w).2 :=
  (aside_transmit h w).abides.trans (abides_transmitted hr payload w)

/-- A callback that is none of the handshake's abides by it, as its script does. -/
theorem abides_callHost {c : Callback Action} (hc : k.AllowsAll c.script)
    (hl : c.label ∉ g.labels) (kind : CallbackKind) (o : Outcome) (w : World) :
    Abides k g w (callHost run kind c o w).2 := by
  have hnoted : Aside k g w (w.record (.calledBack c.label kind o)) := by
    refine aside_record rfl (fun x hx => ?_) w
    obtain rfl := Option.some.inj hx
    exact hl
  exact hnoted.abides.trans (hr _ _ hc)

theorem abides_callSubscriber (notice : Notice) (s : Subscriber) (w : World) :
    Abides k g w (callSubscriber run notice s w).2 := by
  cases s with
  | host label =>
    exact .of_reached fun p hp => (aside_note rfl w).abides.trans
      (hr _ _ (Conduct.allowsAll_lookup hp.subscribers label))
  | terminal =>
    cases notice with
    | statusChanged old new => exact (aside_note rfl w).abides
    | serverStarted result => exact .refl w

theorem abides_tellSubscribers (notice : Notice) (w : World) :
    Abides k g w (tellSubscribers run notice w) := by
  refine Abides.foldl (fun w s _ => ?_) w
  unfold tellSubscription
  split
  · exact .tell (abides_callSubscriber hr notice s.subscriber w)
  · exact .refl w

theorem abides_changeStatus (s : Status) (w : World) :
    Abides k g w (changeStatus run s w) := by
  unfold changeStatus
  dsimp only
  split
  · exact .refl w
  · have htold : Aside k g w ((w.updateAssistant fun a => { a with status := s }).signal
        (.statusChanged w.assistant.status s)) :=
      (aside_updateAssistant _ w).trans (aside_note rfl _)
    exact htold.abides.trans (abides_tellSubscribers hr _ _)

theorem abides_serverStarted (result : Json) (w : World) :
    Abides k g w (serverStarted run result w) := by
  have hstarted : ∀ capabilities, Aside k g w (w.updateClient fun c =>
      { c with capabilities := capabilities, isInitialized := true }) :=
    fun _ => aside_client rfl rfl rfl
  have htell : ∀ result (w : World), Abides k g w (if w.hasAssistant then
      tellSubscribers run (.serverStarted result) (w.signal (.assistantStarted result))
      else w.signal (.serverStarted result)) := by
    intro result w
    split
    · exact (aside_note (e := .signalled (.assistantStarted result)) rfl w).abides.trans
        (abides_tellSubscribers hr _ _)
    · exact (aside_note rfl w).abides
  exact (hstarted _).abides.trans (htell _ _)

/-- What has nothing to do with the handshake is told the outcome of a call. -/
theorem abides_plain (hk : k.Civil g) {id : Nat} {q : Continuation} (hq : k.Plain id q)
    (v : Verdict) (w : World) : Abides k g w (w.callBack (v.continueWith run q)) := by
  refine .callBack ?_
  cases q with
  | reaction r =>
    cases r with
    | host kind c =>
      have hheeds : k.Heeds id c := hq
      have hlabel := hk.labels id c.label hheeds.waits
      cases v with
      | ok r => exact abides_callHost hr hheeds.script hlabel kind (.reply r) w
      | error f => exact abides_callHost hr hheeds.script hlabel kind (.fault f) w
    | startup step => exact hq.elim
  | serverStarted =>
    cases v with
    | ok r => exact abides_serverStarted hr _ w
    | error f => exact .refl w
  | serverNotStarted =>
    cases v with
    | ok r => exact .refl w
    | error f =>
      have hended : Aside k g w (w.updateClient fun c => { c with isInitialized := false }) :=
        aside_client rfl rfl rfl
      exact (hended.trans (addsAsides_statusMessage ..).aside).abides
  | _ => exact hq.elim

end Running

end World

end GhostText
