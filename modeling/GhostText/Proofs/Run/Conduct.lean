import GhostText.Host.Perform

/-!
# The conduct of a host

What a host is free to do, in its scripts as well as by itself, and which of its callbacks may wait
for which call. A callback is known by its label. Everything the program keeps of a host is a script
or a callback, so a host that keeps to a conduct is found to keep to it wherever its scripts run.
-/

namespace GhostText

variable {α : Type}

def Reactions.callbacks (r : Reactions α) : List (Callback α) :=
  r.onResult.toList ++ r.onError.toList

def HandlerSpec.script : HandlerSpec α → List α
  | .absent => []
  | .reserved => []
  | .plain script => script
  | .declared _ script => script

/-- The call that a callback is registered for: a known one, the next one to be made, or one that is
made on the way. -/
inductive Target where
  | call (id : Nat)
  | next
  | later

/-- Whether a call with an identifier can be meant where the next call has another one. -/
def Target.Covers (next : Nat) : Target → Nat → Prop
  | .call i, id => id = i
  | .next, id => id = next
  | .later, _ => True

def ClientAction.registered : ClientAction α → Target × List (Callback α)
  | .request _ _ _ r _ => (.next, r.callbacks)
  | .andThen id r => (.call id, r.callbacks)
  | .startServer _ r => (.next, r.callbacks)
  | .shutdown r => (.next, r.callbacks)
  | _ => (.next, [])

def AssistantAction.registered : AssistantAction α → Target × List (Callback α)
  | .version r => (.next, r.callbacks)
  | .checkStatus _ r => (.next, r.callbacks)
  | .signIn r => (.next, r.callbacks)
  | .confirmSignIn _ r => (.next, r.callbacks)
  | .signOut r => (.next, r.callbacks)
  | .editorInfo _ _ r => (.next, r.callbacks)
  | .completions _ _ r => (.next, r.callbacks)
  | .handshake _ _ _ _ _ onReady onError => (.later, onReady.toList ++ onError.toList)
  | _ => (.next, [])

def TaskAction.registered : TaskAction α → Target × List (Callback α)
  | .start _ onCompletion => (.later, onCompletion.toList)
  | _ => (.next, [])

def ClientAction.scripts : ClientAction α → List (List α)
  | .handleRequests _ h => [h.script]
  | .handleNotifications _ h => [h.script]
  | _ => []

def AssistantAction.scripts : AssistantAction α → List (List α)
  | .subscribe _ _ script => [script]
  | _ => []

namespace Action

def registered : Action → Target × List (Callback Action)
  | .client a => a.registered
  | .assistant a => a.registered
  | .task a => a.registered
  | _ => (.next, [])

def inner (a : Action) : List Action :=
  (a.registered.2.map Callback.script).flatten ++
    match a with
    | .within _ b => [b]
    | .client b => b.scripts.flatten
    | .assistant b => b.scripts.flatten
    | _ => []

end Action

/-- What a host may do, and which callbacks may wait for which call. -/
structure Conduct where
  does : Action → Prop
  waits : (id : Nat) → (label : String) → Prop

namespace Conduct

variable (k : Conduct)

/-- Whether the callbacks of an action may be registered where the next call has an identifier. -/
def Registers (next : Nat) (a : Action) : Prop :=
  ∀ c ∈ a.registered.2, ∀ id, a.registered.1.Covers next id → k.waits id c.label

/-- An action that a host may take at any time, as it may all those inside it. -/
inductive Allows : Action → Prop where
  | intro {a : Action} (does : k.does a) (registers : ∀ next, k.Registers next a)
      (inner : ∀ b ∈ a.inner, Allows b) : Allows a

/-- An action that a host may take where the next call has an identifier. -/
structure Fits (next : Nat) (a : Action) : Prop where
  does : k.does a
  registers : k.Registers next a
  inner : ∀ b ∈ a.inner, k.Allows b

theorem Allows.fits {k : Conduct} {a : Action} (h : k.Allows a) (next : Nat) : k.Fits next a := by
  cases h with
  | intro does registers inner => exact ⟨does, registers next, inner⟩

def AllowsAll (s : Script) : Prop := ∀ a ∈ s, k.Allows a

/-! ## What is kept for later -/

/-- A callback that may wait for a call. -/
structure Heeds (id : Nat) (c : Callback Action) : Prop where
  waits : k.waits id c.label
  script : k.AllowsAll c.script

def Reacts (id : Nat) : Reaction → Prop
  | .host _ c => k.Heeds id c
  | .startup _ => True

/-- The reactions of a handshake wait for calls that are made on the way. -/
def Greets (h : Handshake) : Prop :=
  ∀ r ∈ h.onReady.toList ++ h.onError.toList, ∀ id, k.Reacts id r

def Awaits (id : Nat) : Continuation → Prop
  | .reaction r => k.Reacts id r
  | .afterStart h => k.Greets h
  | .afterEditorInfo h => k.Greets h
  | .fetched _ (.host c) => k.Heeds id c
  | _ => True

def AwaitsAll (id : Nat) (qs : List Continuation) : Prop := ∀ q ∈ qs, k.Awaits id q

structure Handles (h : Handlers) : Prop where
  requests : ∀ method kind script, (method, .user kind (some script)) ∈ h.requests →
    k.AllowsAll script
  notifications : ∀ method script, (method, .script script) ∈ h.notifications → k.AllowsAll script

structure Bound (w : World) : Prop where
  calls : ∀ c ∈ w.client.calls, k.AwaitsAll c.id (c.onResult ++ c.onError)
  handlers : k.Handles w.client.handlers
  subscribers : ∀ label script, (label, script) ∈ w.host.subscribers → k.AllowsAll script

/-! ## From an action to what is kept of it -/

variable {k}

/-- A callback that an action registers may wait for the calls that the action covers. -/
theorem Fits.callbacks {next : Nat} {a : Action} (h : k.Fits next a) {c : Callback Action}
    (hc : c ∈ a.registered.2) {id : Nat} (hid : a.registered.1.Covers next id) :
    k.Heeds id c := by
  refine ⟨h.registers c hc id hid, fun b hb => h.inner b ?_⟩
  simp only [Action.inner, List.mem_append, List.mem_flatten, List.mem_map]
  exact Or.inl ⟨c.script, ⟨c, hc, rfl⟩, hb⟩

/-- What is done in the context of a message may be done anywhere. -/
theorem Fits.within {next n : Nat} {b : Action} (h : k.Fits next (.within n b)) : k.Allows b :=
  h.inner b (List.mem_append_right _ (List.mem_singleton_self b))

/-- Handlers that are handed over do what the host may do. -/
theorem Fits.clientScript {next : Nat} {a : ClientAction Action} (h : k.Fits next (.client a))
    {s : Script} (hs : s ∈ a.scripts) : k.AllowsAll s := fun b hb =>
  h.inner b (List.mem_append_right _ (List.mem_flatten_of_mem hs hb))

/-- So do subscribers. -/
theorem Fits.assistantScript {next : Nat} {a : AssistantAction Action}
    (h : k.Fits next (.assistant a)) {s : Script} (hs : s ∈ a.scripts) : k.AllowsAll s :=
  fun b hb => h.inner b (List.mem_append_right _ (List.mem_flatten_of_mem hs hb))

/-- Two lists may wait for a call if each of them may. -/
theorem awaitsAll_append {id : Nat} {ps qs : List Continuation} :
    k.AwaitsAll id (ps ++ qs) ↔ k.AwaitsAll id ps ∧ k.AwaitsAll id qs :=
  List.forall_mem_append

/-- The reactions of a host as they are kept. -/
theorem awaitsAll_reactions {id : Nat} {r : Reactions Action}
    (h : ∀ c ∈ r.callbacks, k.Heeds id c) :
    k.AwaitsAll id (World.onResult r ++ World.onError r) := by
  intro q hq
  simp only [World.onResult, World.onError, World.hostContinuation, List.mem_append, List.mem_map]
    at hq
  simp only [Reactions.callbacks, List.mem_append] at h
  rcases hq with ⟨c, hc, rfl⟩ | ⟨c, hc, rfl⟩
  · exact h c (Or.inl hc)
  · exact h c (Or.inr hc)

end Conduct

/-- What holds of the scripts of all subscribers and of one more holds of all once that is named. -/
theorem World.forall_nameSubscriber {P : Script → Prop} {w : World} {script : Script}
    (h : ∀ l s, (l, s) ∈ w.host.subscribers → P s) (hs : P script) (label : String) :
    ∀ l s, (l, s) ∈ (w.nameSubscriber label script).host.subscribers → P s := by
  intro l s hl
  simp only [nameSubscriber, updateHost] at hl
  split at hl
  · exact h l s hl
  · rcases List.mem_append.1 hl with hl | hl
    · exact h l s hl
    · cases List.mem_singleton.1 hl
      exact hs

end GhostText
