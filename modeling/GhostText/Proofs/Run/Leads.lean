import GhostText.Proofs.Client.Peer
import GhostText.Proofs.Run.Sound
import GhostText.Proofs.Session.Slot

/-!
# Sending and reporting are rows of steps

From here on every operation is shown to lead from its world to the one it leaves by a row of steps,
given that whatever is run on behalf of others does so too. This module has the operations that the
others are made of: sending, reporting, and making and giving up calls.
-/

namespace GhostText

variable {k : Regime} {w w' w'' : World}

theorem mem_of_lookup {α β : Type} [BEq α] [LawfulBEq α] {l : List (α × β)} {a : α} {b : β}
    (h : l.lookup a = some b) : (a, b) ∈ l := by
  obtain ⟨before, after, rfl, -⟩ := List.lookup_eq_some_iff.1 h
  exact List.mem_append_right before List.mem_cons_self

/-- A subscriber runs the script that was entered under its label, if there is one. -/
theorem Conduct.allowsAll_lookup {k : Conduct} {subscribers : List (String × Script)}
    (h : ∀ label script, (label, script) ∈ subscribers → k.AllowsAll script) (label : String) :
    k.AllowsAll ((subscribers.lookup label).getD []) := by
  intro a ha
  cases hl : subscribers.lookup label with
  | none => simp [hl] at ha
  | some script =>
    rw [hl, Option.getD_some] at ha
    exact h label script (mem_of_lookup hl) a ha

/-- With these the host does itself to the editor what is done when sessions begin and end, or has
something done in the midst of that. -/
def Action.meddles : Action → Bool
  | .editor (.blockSignals _) => true
  | .session (.create _ _ _ _) => true
  | .assistant (.subscribe _ _ script) => !script.isEmpty
  | a => a.draws

/-- A conduct by which the host leaves the sessions to the controller. -/
def Conduct.Modest (k : Conduct) : Prop := ∀ a, k.does a → a.meddles = false

/-- From a sound world there is a row of steps to the other one, no end of a session is left half
done, and what the client keeps of its peer changes in a row of steps too. -/
structure Moves (k : Regime) (w w' : World) : Prop where
  steps : k.Sound w → Steps k w w'
  closes : k.Sound w → w.Closes w'
  peer : k.Sound w → w.client.PeerSteps w'.client

/-- What is done as a whole, and leaves what is shown in order. -/
structure Goes (k : Regime) (w w' : World) : Prop extends Moves k w w' where
  neat : k.Sound w → k.Modest → w.LeavesNeat w'

/-- What is done as a whole, and turns to no other file if the host stays with the one it has. -/
structure Leads (k : Regime) (w w' : World) : Prop extends Goes k w w' where
  file : k.Sound w → k.Stays → w.SameFile w'

structure Regime.Sends (k : Regime) (payload : Json) : Prop where
  document : payload.tellsOfDocument → ∃ a, k.does a ∧ a.writesDocument
  report : payload.isReport → k.engages
  file : k.Stays → payload.documentNotice? = none

/-- A way to run things that only makes steps, and that makes none where there is nothing to run. -/
structure Runner.Steady (k : Regime) (run : Runner) : Prop where
  leads : ∀ i w, k.Permits i → Leads k w (run i w).2
  idle : ∀ w, (run (.script none []) w).2 = w

structure Outline where
  contexts : List Context
  inFlight : List Json
  cancelled : List Json
  accepting : Bool
  activeFile : Json
  events : List Event

def World.outline (w : World) : Outline where
  contexts := w.client.contexts
  inFlight := w.client.inFlight
  cancelled := w.client.cancelled
  accepting := w.transport.accepting
  activeFile := w.fetches.activeFile
  events := w.events

namespace Moves

theorem trans (h : Moves k w w') (h' : Moves k w' w'') : Moves k w w'' :=
  ⟨fun hs => (h.steps hs).trans (h'.steps ((h.steps hs).sound hs)),
    fun hs => (h.closes hs).trans (h'.closes ((h.steps hs).sound hs)),
    fun hs => (h.peer hs).trans (h'.peer ((h.steps hs).sound hs))⟩

/-- A step that leaves the sessions and the messages of the peer as they are. -/
theorem single (h : Step k w w') (hs : w'.sessions = w.sessions) (hc : w'.client = w.client) :
    Moves k w w' :=
  ⟨fun _ => .single h, fun _ => .of_sessions hs, fun _ => hc ▸ .refl⟩

end Moves

namespace Goes

theorem trans (h : Goes k w w') (h' : Goes k w' w'') : Goes k w w'' :=
  ⟨h.toMoves.trans h'.toMoves,
    fun hs hk => (h.neat hs hk).trans (h'.neat ((h.steps hs).sound hs) hk)⟩

/-- A step that at most adds events to what is shown and to the messages of the peer. -/
theorem single (h : Step k w w') (hs : w'.scene = w.scene)
    (he : ∃ es, w'.events = w.events ++ es) (hc : w'.client = w.client) : Goes k w w' :=
  ⟨.single h (congrArg World.Scene.sessions hs) hc, fun _ _ => .of_scene hs he⟩

end Goes

namespace Leads

theorem refl (w : World) : Leads k w w :=
  ⟨⟨⟨fun _ => .refl, fun _ => .refl w, fun _ => .refl⟩, fun _ _ => .refl w⟩, fun _ _ => .refl w⟩

theorem trans (h : Leads k w w') (h' : Leads k w' w'') : Leads k w w'' :=
  ⟨h.toGoes.trans h'.toGoes,
    fun hs hk => (h.file hs hk).trans (h'.file ((h.steps hs).sound hs) hk)⟩

/-- A step that leaves the sessions, the messages of the peer and the documents as they are, with
what it does to what is shown. -/
theorem step (h : Step k w w') (hs : w'.sessions = w.sessions) (ho : w'.outline = w.outline)
    (hn : k.Sound w → k.Modest → w.LeavesNeat w') : Leads k w w' where
  steps _ := .single h
  closes _ := .of_sessions hs
  neat := hn
  peer _ := .single (.aside (congrArg Outline.contexts ho) (congrArg Outline.inFlight ho)
    (congrArg Outline.cancelled ho))
  file _ _ := .of_eq (congrArg Outline.accepting ho) (congrArg Outline.activeFile ho)
    (congrArg Outline.events ho)

/-- A step of a host that meddles. -/
theorem meddle {a : Action} (ha : k.does a) (hm : a.meddles = true) (h : Step k w w')
    (hs : w'.sessions = w.sessions) (ho : w'.outline = w.outline) : Leads k w w' :=
  .step h hs ho fun _ hk => by simp [hk a ha] at hm

/-- A step that leaves what is shown, the messages of the peer and the documents as they are. -/
theorem single (h : Step k w w') (hs : w'.scene = w.scene) (ho : w'.outline = w.outline) :
    Leads k w w' :=
  .step h (congrArg World.Scene.sessions hs) ho fun _ _ =>
    .of_scene hs ⟨[], (congrArg Outline.events ho).trans (List.append_nil _).symm⟩

/-- An event that is told to the host alone. -/
theorem record {e : Event} (h : Step k w (w.record e)) (he : e.documentNotice? = none) :
    Leads k w (w.record e) :=
  ⟨.single h rfl ⟨[e], rfl⟩ rfl, fun _ _ => .of_events rfl rfl rfl (by simpa using he)⟩

/-- An aside is a step of its own. -/
theorem note {e : Event} (h : e.isAside) : Leads k w (w.record e) :=
  record (.note h) (Event.documentNotice?_of_isQuiet (Event.isQuiet_of_isAside h))

/-- The soundness of the world may be used. -/
theorem of_sound (h : k.Sound w → Leads k w w') : Leads k w w' :=
  ⟨⟨⟨fun hs => (h hs).steps hs, fun hs => (h hs).closes hs, fun hs => (h hs).peer hs⟩,
    fun hs => (h hs).neat hs⟩, fun hs => (h hs).file hs⟩

theorem foldl {α : Type} {f : World → α → World} {l : List α}
    (h : ∀ w, ∀ a ∈ l, Leads k w (f w a)) (w : World) : Leads k w (l.foldl f w) :=
  List.foldlRecOn (motive := Leads k w) l f (refl w) fun w₁ hw a ha => hw.trans (h w₁ a ha)

end Leads

namespace World

/-- Events that may each be recorded may be recorded in a row. -/
theorem Adds.leads {es : List Event} (h : w.Adds w' es)
    (he : ∀ w : World, ∀ e ∈ es, Leads k w (w.record e)) : Leads k w w' := by
  have hf : w' = es.foldl (fun w e => w.record e) w := by
    rw [h]
    clear h he
    induction es generalizing w with
    | nil => simp
    | cons e es ih => simpa [record] using ih (w := w.record e)
  rw [hf]
  exact Leads.foldl he w

theorem AddsAsides.leads (h : w.AddsAsides w') : Leads k w w' := by
  obtain ⟨es, he, ha⟩ := h
  exact he.leads fun w e hm => .note (ha e hm)

end World

theorem Leads.tell {x : Act World Unit} (h : Leads k w (x w).2) : Leads k w (w.tell x) :=
  h.trans (World.addsAsides_tell x w).leads

namespace World

theorem leads_signal {s : Signal} (h : (Event.signalled s).isAside) (w : World) :
    Leads k w (w.signal s) :=
  .note h

theorem leads_log (level : LogLevel) (text : String) (w : World) : Leads k w (w.log level text) :=
  (addsAsides_log level text w).leads

theorem leads_clientLog (level : LogLevel) (text : String) (w : World) :
    Leads k w (w.clientLog level text) :=
  (addsAsides_clientLog level text w).leads

theorem leads_logTraffic (direction arrow : String) (payload : Json) (w : World) :
    Leads k w (w.logTraffic direction arrow payload) :=
  (addsAsides_logTraffic direction arrow payload w).leads

/-- A change of the client that concerns neither the calls nor the handlers. -/
theorem leads_client {c : Client} (calls : c.calls = w.client.calls)
    (pending : c.pending = w.client.pending) (handlers : c.handlers = w.client.handlers)
    (peer : w.client.PeerStep c) : Leads k w { w with client := c } where
  steps _ := .single (.client (.aside calls pending handlers))
  closes _ := .of_sessions rfl
  peer _ := .single peer
  neat _ _ := .of_scene rfl ⟨[], (List.append_nil _).symm⟩
  file _ _ := .of_eq rfl rfl rfl

theorem leads_callBack {x : Act World Unit} (h : Leads k w (x w).2) : Leads k w (w.callBack x) :=
  h.trans (addsAsides_callBack x w).leads

/-! ## Sending -/

/-- A message that may be sent is written in one step, or not at all. -/
theorem leads_transmit {payload : Json} (h : k.Sends payload) (w : World) :
    Leads k w (w.transmit payload).2 := by
  unfold transmit
  split
  · next ha =>
    refine ⟨.single (.send ha h.document h.report) rfl ⟨[.sent payload], rfl⟩ rfl, fun _ hk => ?_⟩
    exact .of_events rfl rfl rfl fun e hm => (List.mem_singleton.1 hm ▸ h.file hk)
  · exact .refl w

theorem leads_post {payload : Json} (h : k.Sends payload) (w : World) :
    Leads k w (w.post payload).2 :=
  (leads_transmit h w).trans (addsAsides_afterWrite payload _).leads

/-- Whatever has an identifier may be sent: it tells of nothing that a step would have to match. -/
theorem sends_of_id {payload : Json} (id : Json) (h : payload.field? "id" = some id) :
    k.Sends payload :=
  ⟨fun ht => by simp [tellsOfDocument_of_id h] at ht, fun ht => by simp [isReport_of_id h] at ht,
    fun _ => documentNotice?_of_id h⟩

def isTelling (method : String) : Bool := isNoticeMethod method || reportMethods.contains method

theorem sends_notification {method : String} (h : isTelling method = false)
    (params : Json) : k.Sends (Message.notification method params).toJson := by
  simp only [isTelling, Bool.or_eq_false_iff] at h
  have hnone := documentNotice?_notification h.1 params
  exact ⟨fun ht => by simp [Json.tellsOfDocument_of_documentNotice? hnone] at ht,
    fun ht => by simp [isReport_notification h.2] at ht, fun _ => hnone⟩

theorem leads_notify {method : String} (h : isTelling method = false) (params : Json)
    (w : World) : Leads k w (w.notify method params) :=
  leads_post (sends_notification h params) w

/-- What becomes of a completion is told where the regime has it. -/
theorem leads_report {method : String} (h : isNoticeMethod method = false) (he : k.engages)
    (params : Json) (w : World) : Leads k w (w.notify method params) :=
  have hnone := documentNotice?_notification h params
  leads_post ⟨fun ht => by simp [Json.tellsOfDocument_of_documentNotice? hnone] at ht, fun _ => he,
    fun _ => hnone⟩ w

theorem leads_closeClient (w : World) : Leads k w w.closeClient := by
  have hd : ∀ w : World, Leads k w (w.updateClient Client.disconnect) := fun w =>
    ⟨⟨⟨fun _ => .single (.client .disconnect), fun _ => .of_sessions rfl,
      fun _ => .single .disconnect⟩, fun _ _ => .of_scene rfl ⟨[], (List.append_nil _).symm⟩⟩,
      fun _ _ => .of_eq rfl rfl rfl⟩
  obtain ⟨w₀, asides, he⟩ := closeClient_eq w
  exact he ▸ asides.leads.trans (hd w₀)

/-! ## Answers to the peer -/

/-- The first answer to a request is granted. -/
theorem claimAnswer_eq {n : Nat} {c : Context} (isRequest : c.isRequest = true)
    (unanswered : c.answered = false) (w : World) : w.claimAnswer n c =
      (true, w.updateClient fun k => k.updateContext n fun c => { c with answered := true }) := by
  simp [claimAnswer, isRequest, unanswered]

/-- What is no request, or answered already, is not answered. -/
theorem claimAnswer_refused {n : Nat} {c : Context}
    (h : ¬ (c.isRequest = true ∧ c.answered = false)) :
    ∃ w₁, w.claimAnswer n c = (false, w₁) ∧ w.AddsAsides w₁ := by
  unfold claimAnswer
  cases hr : c.isRequest with
  | false => exact ⟨_, rfl, addsAsides_clientLog ..⟩
  | true =>
    cases ha : c.answered with
    | true => exact ⟨_, rfl, addsAsides_clientLog ..⟩
    | false => exact absurd ⟨hr, ha⟩ h

def cancelledAnswer (c : Context) : Message :=
  .response c.id .null (some (.of .requestCancelled ("Request " ++ c.method ++ " was cancelled")))

/-- The answer that a request gets when it succeeds. -/
def answerOf (c : Context) (value : Json) (w : World) : Message :=
  if w.client.isCancelled c.id then cancelledAnswer c else .response c.id value none

theorem sends_answerOf (c : Context) (value : Json) (w : World) :
    k.Sends (w.answerOf c value).toJson := by
  unfold answerOf
  split <;> exact sends_of_id c.id rfl

section Answers

variable {n : Nat} {c : Context}

section Unanswered

variable (found : w.client.context? n = some c) (isRequest : c.isRequest = true)
  (unanswered : c.answered = false)

include found isRequest unanswered

/-- The first answer to a request concludes it and is sent. -/
theorem succeed_eq (value : Json) : w.succeed n value =
    ((w.updateClient (Client.conclude n c.id)).post (w.answerOf c value).toJson).2 := by
  unfold succeed
  rw [found]
  dsimp only
  rw [claimAnswer_eq isRequest unanswered]
  dsimp only
  have htaken : (w.updateClient fun k => k.updateContext n fun c => { c with answered := true }
      ).takeCancelled c.id =
        (w.client.isCancelled c.id, w.updateClient (Client.conclude n c.id)) :=
    Prod.ext (Client.fst_consumeCancelled ..) rfl
  rw [htaken, answerOf]
  cases w.client.isCancelled c.id <;> rfl

/-- The first error for a request concludes it and is sent, if it can be written. -/
theorem failWith_eq (error : Except Fault ResponseError) : failWith n error w =
    match error with
    | .ok e => (.ok (), ((w.updateClient (Client.conclude n c.id)).post
        (Message.response c.id .null (some e)).toJson).2)
    | .error f => (.error f, w.updateClient (Client.conclude n c.id)) := by
  unfold failWith
  rw [found]
  dsimp only
  rw [claimAnswer_eq isRequest unanswered]
  cases error <;> rfl

theorem leads_conclude : Leads k w (w.updateClient (Client.conclude n c.id)) := by
  have hpeer : w.client.PeerStep (w.client.conclude n c.id) := .answer found isRequest unanswered
  rw [updateClient]
  rw [Client.conclude, Client.consumeCancelled_eq] at hpeer ⊢
  exact leads_client rfl rfl rfl hpeer

end Unanswered

section Refused

variable (found : w.client.context? n = some c)
  (refused : ¬ (c.isRequest = true ∧ c.answered = false))

include found refused

/-- An answer that is not granted leaves nothing but records. -/
theorem addsAsides_succeed (value : Json) : w.AddsAsides (w.succeed n value) := by
  obtain ⟨w₁, he, asides⟩ := claimAnswer_refused (w := w) (n := n) refused
  unfold succeed
  rw [found]
  dsimp only
  rw [he]
  exact asides

theorem addsAsides_failWith (error : Except Fault ResponseError) :
    w.AddsAsides (failWith n error w).2 := by
  obtain ⟨w₁, he, asides⟩ := claimAnswer_refused (w := w) (n := n) refused
  unfold failWith
  rw [found]
  dsimp only
  rw [he]
  exact asides

end Refused

end Answers

/-- A result concludes a request that is unanswered and is sent; otherwise only asides are added. -/
theorem succeed_cases (n : Nat) (value : Json) (w : World) : w.AddsAsides (w.succeed n value) ∨
    ∃ c, w.client.context? n = some c ∧ c.isRequest = true ∧ c.answered = false ∧
      w.succeed n value =
        ((w.updateClient (Client.conclude n c.id)).post (w.answerOf c value).toJson).2 := by
  cases found : w.client.context? n with
  | none =>
    rw [succeed, found]
    exact .inl (.refl w)
  | some c =>
    by_cases h : c.isRequest = true ∧ c.answered = false
    · exact .inr ⟨c, rfl, h.1, h.2, succeed_eq found h.1 h.2 value⟩
    · exact .inl (addsAsides_succeed found h value)

/-- An error does so too, but one that turns out to be none is not sent. -/
theorem failWith_cases (n : Nat) (error : Except Fault ResponseError) (w : World) :
    w.AddsAsides (failWith n error w).2 ∨
    ∃ c, w.client.context? n = some c ∧ c.isRequest = true ∧ c.answered = false ∧
      ((∃ e, error = .ok e ∧ (failWith n error w).2 =
        ((w.updateClient (Client.conclude n c.id)).post
          (Message.response c.id .null (some e)).toJson).2) ∨
        (failWith n error w).2 = w.updateClient (Client.conclude n c.id)) := by
  cases found : w.client.context? n with
  | none =>
    rw [failWith, found]
    exact .inl (.refl w)
  | some c =>
    by_cases h : c.isRequest = true ∧ c.answered = false
    · refine .inr ⟨c, rfl, h.1, h.2, ?_⟩
      rw [failWith_eq found h.1 h.2]
      cases error with
      | ok e => exact .inl ⟨e, rfl, rfl⟩
      | error f => exact .inr rfl
    · exact .inl (addsAsides_failWith found h error)

theorem leads_succeed (n : Nat) (value : Json) (w : World) : Leads k w (w.succeed n value) := by
  obtain hasides | ⟨c, found, isRequest, unanswered, he⟩ := succeed_cases n value w
  · exact hasides.leads
  · rw [he]
    exact (leads_conclude found isRequest unanswered).trans (leads_post (sends_answerOf ..) _)

theorem leads_failWith (n : Nat) (error : Except Fault ResponseError) (w : World) :
    Leads k w (failWith n error w).2 := by
  obtain hasides | ⟨c, found, isRequest, unanswered, hsent⟩ := failWith_cases n error w
  · exact hasides.leads
  · have hconclude := leads_conclude (k := k) found isRequest unanswered
    obtain ⟨e, -, he⟩ | he := hsent
    · exact he ▸ hconclude.trans (leads_post (sends_of_id c.id rfl) _)
    · exact he ▸ hconclude

theorem leads_failAs (n : Nat) (code : ErrorCode) (message : String) (w : World) :
    Leads k w (w.failAs n code message) :=
  leads_failWith ..

/-! ## Sending what may be answered -/

section Running

variable {run : Runner} (hr : run.Steady k)

include hr

/-- A message that is answered as it is written leads on by what the answer brings. -/
theorem leads_send {payload : Json} (h : k.Sends payload) (w : World) :
    Leads k w (send run payload w).2 := by
  have hsent := leads_transmit h w
  obtain ⟨w₁, asides, hw₁⟩ := send_cases run payload w
  refine .of_sound fun hs => Leads.trans ?_ asides.leads
  rcases hw₁ with rfl | ⟨answer, hanswer, rfl | rfl⟩
  · exact hsent
  · exact hsent.trans (.single (.transport (.arrive _)) rfl rfl)
  · exact hsent.trans (.tell (hr.leads _ _ (hs.reads hanswer)))

omit hr in
/-- A message that is not accepted is not sent; or the transport refuses what it has answered. -/
theorem send_refused {payload : Json} {w : World} (h : (send run payload w).1 = false) :
    w.AddsAsides (send run payload w).2 ∨ w.transport.refusesAnswered = true ∧
      ∃ answer, w.transport.answerTo? payload = some answer := by
  have hrefused : w.transport.accepting = false → w.transmit payload = (false, w) := by
    intro ha
    simp [transmit, ha]
  unfold send at h ⊢
  cases hanswer : w.transport.answerTo? payload with
  | none =>
    simp only [hanswer, fst_post] at h
    simp only [post, hrefused h]
    exact Or.inl (addsAsides_clientLog ..)
  | some answer =>
    simp only [hanswer, fst_afterWrite] at h ⊢
    by_cases ha : w.transport.accepting = true
    · have hsent : w.transmit payload = (true, w.record (.sent payload)) := by
        simp [transmit, ha]
      simp only [writeAnswered, hsent] at h
      split at h
      · simp at h
      · exact Or.inr ⟨by simpa [record] using h, answer, rfl⟩
    · rw [Bool.not_eq_true] at ha
      simp only [writeAnswered, hrefused ha]
      exact Or.inl (addsAsides_clientLog ..)

/-! ## Reporting -/

/-- A callback of a call that has settled may be called, and its script is a row of steps. -/
theorem leads_callHost {id : Nat} {c : Callback Action} (hc : k.Heeds id c) (kind : CallbackKind)
    (o : Outcome) {w : World} (hs : w.Settled id) : Leads k w (callHost run kind c o w).2 :=
  (Leads.record (.callBack kind o hc.waits hs) rfl).trans
    (hr.leads (.script none c.script) _ hc.script)

theorem leads_callSubscriber (notice : Notice) (s : Subscriber) (w : World) :
    Leads k w (callSubscriber run notice s w).2 := by
  cases s with
  | host label =>
    exact .of_sound fun hs => (Leads.note rfl).trans (hr.leads (.script none _) _
      (Conduct.allowsAll_lookup hs.bound.subscribers label))
  | terminal =>
    cases notice with
    | statusChanged old new => exact .note rfl
    | serverStarted result => exact .refl w

theorem leads_tellSubscribers (notice : Notice) (w : World) :
    Leads k w (tellSubscribers run notice w) := by
  refine Leads.foldl (fun w s _ => ?_) w
  unfold tellSubscription
  split
  · exact .tell (leads_callSubscriber hr notice s.subscriber w)
  · exact .refl w

/-- A change of the status is one step, and telling it takes the others. -/
theorem leads_changeStatus (s : Status) (w : World) : Leads k w (changeStatus run s w) := by
  unfold changeStatus
  dsimp only
  split
  · exact .refl w
  · exact (Leads.single (.assistant (.status s)) rfl rfl).trans
      ((leads_signal rfl _).trans (leads_tellSubscribers hr ..))

theorem leads_reportAccount (status : Json) (w : World) :
    Leads k w (reportAccount run status w) :=
  leads_changeStatus hr ..

theorem leads_reportActivity (busy : Bool) (w : World) : Leads k w (reportActivity run busy w) :=
  leads_changeStatus hr ..

theorem leads_reportIfIdle (w : World) : Leads k w (reportIfIdle run w) := by
  unfold reportIfIdle
  split
  · exact leads_reportActivity hr ..
  · exact .refl w

/-- A fetch is given up in one step, and the status may change behind it. -/
theorem leads_cancelFetch (id : Json) (w : World) : Leads k w (cancelFetch run id w).2 := by
  unfold cancelFetch
  cases id.toInteger with
  | error f => exact .refl w
  | ok n =>
    dsimp only
    split
    · exact (Leads.single (.fetches (.cancel n)) rfl rfl).trans (leads_reportIfIdle hr _)
    · exact .refl w

theorem leads_cancelFetches (w : World) : Leads k w (cancelFetches run w) :=
  (Leads.single (.fetches .cancelAll) rfl rfl).trans (leads_reportActivity hr ..)

omit hr in
theorem leads_removeFetch (ha : k.asks) (id : Nat) (w : World) :
    Leads k w (w.removeFetch id).2 :=
  .single (.fetches (.finish id ha)) rfl rfl

/-- A fetch that fails leaves the table, and the status may change behind it. -/
theorem leads_fetchFailed (ha : k.asks) (id : Nat) (f : Fault) (w : World) :
    Leads k w (fetchFailed run id f w) :=
  (leads_removeFetch ha id w).trans ((leads_log ..).trans (leads_reportIfIdle hr _))

end Running

/-! ## The end of a start -/

theorem addsAsides_statusMessage (text : String) (w : World) :
    w.AddsAsides (w.statusMessage text) := by
  unfold statusMessage
  split
  · exact addsAsides_log ..
  · exact addsAsides_record rfl w

theorem leads_statusMessage (text : String) (w : World) : Leads k w (w.statusMessage text) :=
  (addsAsides_statusMessage ..).leads

/-- A start from the command line ends with its exit code, and the connection with it. -/
theorem leads_finishStartup (code : Nat) (w : World) : Leads k w (w.finishStartup code) := by
  have hstart : Leads k w (w.updateStartup fun s => { s with exitCode := some code }) :=
    .single (.startup _) rfl rfl
  exact hstart.trans ((leads_notify rfl ..).trans
    ((Leads.note rfl).trans (leads_closeClient _)))

end World

end GhostText
