import GhostText.Proofs.Client.Replying
import GhostText.Proofs.Run.Runs

/-!
# What settles no call

Log records, messages that are sent, and requests and notifications of the peer leave the calls as
they are, as long as the scripts of the host do nothing but answer the peer and fail.
-/

namespace GhostText

/-- With these a script concerns no call: it fails, or it acts on the message it is run for. -/
def Action.isPassive : Action → Bool
  | .raise _ => true
  | .context _ => true
  | _ => false

def Conduct.passive : Conduct := ⟨fun a => a.isPassive, fun _ _ => True⟩

theorem Conduct.isPassive_of_allowsAll {s : Script} (h : Conduct.passive.AllowsAll s) :
    ∀ a ∈ s, a.isPassive := by
  intro a ha
  cases h a ha with
  | intro does _ _ => exact does

/-- What a callback was told, if the event is one. -/
def Event.callback? : Event → Option (String × CallbackKind × Outcome)
  | .calledBack label kind o => some (label, kind, o)
  | _ => none

theorem Event.callback?_of_isAside {e : Event} (h : e.isAside) : e.callback? = none := by
  cases e <;> simp_all [Event.isAside, Event.callback?]

namespace World

def callbacks (w : World) : List (String × CallbackKind × Outcome) :=
  w.events.filterMap Event.callback?

/-- The calls and what waits for them are as they were, and the callbacks were told something
meanwhile. -/
structure CallsBack (w w' : World) (told : List (String × CallbackKind × Outcome)) : Prop where
  calls : w'.client.calls = w.client.calls
  pending : w'.client.pending = w.client.pending
  handlers : w'.client.handlers = w.client.handlers
  transport : w'.transport = w.transport
  subscriptions : w'.assistant.subscriptions = w.assistant.subscriptions
  told : w'.callbacks = w.callbacks ++ told

abbrev Passes (w w' : World) : Prop := CallsBack w w' []

/-- Nothing answers while a request is made, scripts concern no calls, and nobody has subscribed. -/
structure Quiet (w : World) : Prop where
  answers : w.transport.answers = []
  handlers : Conduct.passive.Handles w.client.handlers
  subscriptions : w.assistant.subscriptions = []

variable {w w' w'' : World} {told told' : List (String × CallbackKind × Outcome)}

/-- A client stays quiet while nobody but its callers is told anything. -/
theorem CallsBack.quiet (h : w.CallsBack w' told) (hw : w.Quiet) : w'.Quiet :=
  ⟨h.transport ▸ hw.answers, h.handlers ▸ hw.handlers, h.subscriptions ▸ hw.subscriptions⟩

theorem CallsBack.trans (h : w.CallsBack w' told) (h' : w'.CallsBack w'' told') :
    w.CallsBack w'' (told ++ told') :=
  ⟨h'.calls.trans h.calls, h'.pending.trans h.pending, h'.handlers.trans h.handlers,
    h'.transport.trans h.transport, h'.subscriptions.trans h.subscriptions,
    by rw [h'.told, h.told, List.append_assoc]⟩

theorem Passes.refl (w : World) : w.Passes w := ⟨rfl, rfl, rfl, rfl, rfl, (List.append_nil _).symm⟩

theorem Passes.trans (h : w.Passes w') (h' : w'.Passes w'') : w.Passes w'' := CallsBack.trans h h'

theorem CallsBack.passes (h : w.CallsBack w' told) (h' : w'.Passes w'') : w.CallsBack w'' told :=
  List.append_nil told ▸ CallsBack.trans h h'

theorem Passes.callsBack (h : w.Passes w') (h' : w'.CallsBack w'' told) : w.CallsBack w'' told :=
  CallsBack.trans h h'

theorem Adds.passes {es : List Event} (h : Adds w w' es) (he : ∀ e ∈ es, e.callback? = none) :
    w.Passes w' := by
  subst h
  have hnone : es.filterMap Event.callback? = [] := List.filterMap_eq_nil_iff.2 he
  exact ⟨rfl, rfl, rfl, rfl, rfl, by simp [callbacks, hnone]⟩

theorem AddsAsides.passes (h : AddsAsides w w') : w.Passes w' := by
  obtain ⟨es, he, ha⟩ := h
  exact he.passes fun e h => Event.callback?_of_isAside (ha e h)

/-- What is done for the peer concerns no call. -/
theorem Replies.passes (h : w.Replies w') : w.Passes w' := by
  obtain ⟨es, he, replies⟩ := h.events
  have hnone : es.filterMap Event.callback? = [] := by
    refine List.filterMap_eq_nil_iff.2 fun e hm => ?_
    obtain aside | ⟨id, result, error, rfl⟩ := replies e hm
    · exact Event.callback?_of_isAside aside
    · rfl
  refine ⟨h.calls, h.pending, h.handlers, by rw [h.rest], by rw [h.rest], ?_⟩
  simp only [callbacks, he, List.filterMap_append, hnone]

theorem passes_record {e : Event} (h : e.callback? = none) (w : World) : w.Passes (w.record e) :=
  (adds_record e w).passes (by simpa using h)

theorem passes_clientLog (level : LogLevel) (text : String) (w : World) :
    w.Passes (w.clientLog level text) :=
  (addsAsides_clientLog ..).passes

/-- A change of the client that concerns neither the calls nor the handlers. -/
theorem passes_client {c : Client} (calls : c.calls = w.client.calls)
    (pending : c.pending = w.client.pending) (handlers : c.handlers = w.client.handlers) :
    w.Passes { w with client := c } :=
  ⟨calls, pending, handlers, rfl, rfl, (List.append_nil _).symm⟩

/-! ## Messages -/

theorem passes_post (payload : Json) (w : World) : w.Passes (w.post payload).2 := by
  obtain ⟨es, ha, he⟩ := post_adds payload w
  refine he.passes (List.forall_mem_append.2
    ⟨?_, fun e h => Event.callback?_of_isAside (ha e h)⟩)
  split
  · simp [Event.callback?]
  · simp

theorem passes_notify (method : String) (params : Json) (w : World) :
    w.Passes (w.notify method params) :=
  passes_post ..

/-! ## Scripts -/

end World

def Runner.Passive (run : Runner) : Prop :=
  ∀ context s, (∀ a ∈ s, Action.isPassive a) → ∀ w : World, w.transport.answers = [] →
    w.Passes (run (.script context s) w).2

namespace World

variable {w : World}

/-- What a handler does with its message settles no call of its own client. -/
theorem passes_performContext (run : Runner) (n : Nat) (a : ContextAction)
    (h : w.transport.answers = []) : w.Passes (performContext run n a w).2 := by
  obtain hreplies | rfl | ⟨m, rfl⟩ := performContext_cases run n a w
  · exact hreplies.passes
  · exact ⟨rfl, rfl, rfl, rfl, rfl, (List.append_nil _).symm⟩
  · simp only [performContext, send_eq_post (Transport.answerTo?_of_nil h _)]
    exact passes_post ..

theorem passes_perform (run : Runner) (context : Option Nat) {a : Action} (ha : a.isPassive)
    (h : w.transport.answers = []) : w.Passes (perform run context a w).2 := by
  cases a with
  | raise f => exact .refl w
  | context a =>
    cases context with
    | none => exact .refl w
    | some n => exact passes_performContext run n a h
  | _ => cases ha

theorem passes_performAll (run : Runner) (context : Option Nat) {s : Script}
    (hs : ∀ a ∈ s, a.isPassive) (h : w.transport.answers = []) :
    w.Passes (performAll run context s w).2 :=
  performAll_preserves (.refl w) fun _ hw a ha =>
    hw.trans (passes_perform run context (hs a ha) (hw.transport ▸ h))

/-- At every depth scripts that only answer and fail settle no call. -/
theorem passive_runTo (depth : Nat) : (runTo depth).Passive := by
  intro context s hs w h
  cases depth with
  | zero => exact .refl w
  | succ depth => exact passes_performAll _ context hs h

/-! ## Requests and notifications of the peer -/

/-- Where nobody has subscribed a change of the status is told to nobody. -/
theorem passes_changeStatus {run : Runner} (h : w.assistant.subscriptions = []) (status : Status) :
    w.Passes (changeStatus run status w) := by
  have hstatus : w.Passes (w.updateAssistant fun a => { a with status := status }) :=
    ⟨rfl, rfl, rfl, rfl, rfl, (List.append_nil _).symm⟩
  exact hstatus.trans (addsAsides_changeStatus run (by simp [h]) status).passes

section Running

variable {run : Runner} (hr : run.Passive) (hw : w.Quiet)

include hr hw

/-- A request of the peer settles no call. -/
theorem passes_handleRequest (n : Nat) (id : Json) (method : String) (params : Json) :
    w.Passes (handleRequest run n id method params w) := by
  obtain hreplies | ⟨kind, script, w₁, found, before, after⟩ :=
    handleRequest_cases run n id method params w
  · exact hreplies.passes
  · have hscript := Conduct.isPassive_of_allowsAll
      (allows_request? (k := Conduct.passive.free) hw.handlers found)
    have hran := hr (some n) script hscript w₁ (before.passes.quiet hw).answers
    exact before.passes.trans (hran.trans after.passes)

/-- A notification of the peer settles no call. -/
theorem passes_handleNotification (n : Nat) (method : String) (params : Json) :
    w.Passes (handleNotification run n method params w) := by
  obtain hreplies | ⟨script, w₁, found, before, after⟩ | ⟨-, status, he⟩ :=
    handleNotification_cases run n method params w
  · exact hreplies.passes
  · have hscript := Conduct.isPassive_of_allowsAll
      (allows_notification? (k := Conduct.passive.free) hw.handlers found)
    have hran := hr (some n) script hscript w₁ (before.passes.quiet hw).answers
    exact before.passes.trans (hran.trans after.passes)
  · rw [he]
    exact (passes_changeStatus hw.subscriptions status).trans (passes_record rfl _)

end Running

end World

end GhostText
