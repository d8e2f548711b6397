import GhostText.Proofs.Fetch.Attending
import GhostText.Proofs.Handshake.Carrying
import GhostText.Proofs.Run.Unrestrained

/-!
# How a handshake advances

What a stretch of a run does with a handshake. Most of what the program does is no business of the
handshake's: it hands over no message of it and leaves it where it is. What settles or makes calls
may carry it on, but one that has halted stays where it has.
-/

namespace GhostText

variable {k : Conduct} {g : Greeting} {p q r : Greeting.Progress}

/-! ## What becomes of the calls -/

namespace Client

variable {c c' c'' : Client}

/-- Calls that were made stay, each with its method and with the outcome it has, and what was taken
from the table does not come back. -/
structure Keeps (c c' : Client) : Prop where
  evolves : ∀ {id : Nat} {call : Call}, c.call? id = some call →
    ∃ call', c'.call? id = some call' ∧ call.Evolves call'
  absent : ∀ {id : Nat}, c.Absent id → c'.Absent id

namespace Keeps

theorem refl (c : Client) : c.Keeps c := ⟨fun hc => ⟨_, hc, .refl _⟩, fun ha => ha⟩

theorem trans (h : c.Keeps c') (h' : c'.Keeps c'') : c.Keeps c'' := by
  refine ⟨fun hc => ?_, fun ha => h'.absent (h.absent ha)⟩
  obtain ⟨call', hc', he⟩ := h.evolves hc
  obtain ⟨call'', hc'', he'⟩ := h'.evolves hc'
  exact ⟨call'', hc'', he.trans he'⟩

theorem of_eq (calls : c'.calls = c.calls) (pending : c'.pending = c.pending) : c.Keeps c' := by
  refine ⟨fun {_ call} hc => ⟨call, by simpa only [call?, calls] using hc, .refl call⟩,
    fun ha => ⟨?_, ?_⟩⟩
  · simpa only [nextId, calls] using ha.made
  · rw [pending]
    exact ha.absent

/-- A call stays where it is in the table, and once it has settled it stays settled. -/
theorem of_step (h : ClientStep Conduct.any.free True c c') (hl : c.Ledger) : c.Keeps c' :=
  ⟨h.evolves hl, h.absent⟩

end Keeps

end Client

namespace Conduct

theorem any_reacts (id : Nat) (r : Reaction) : any.Reacts id r := by
  cases r with
  | host kind c => exact ⟨trivial, fun a _ => any_allows a⟩
  | startup step => trivial

/-- Whoever may do everything may have anything wait for a call. -/
theorem any_awaits (id : Nat) (q : Continuation) : any.Awaits id q := by
  cases q with
  | reaction r => exact any_reacts id r
  | afterStart h | afterEditorInfo h => exact fun r _ id => any_reacts id r
  | fetched task sink =>
    cases sink with
    | host c => exact ⟨trivial, fun a _ => any_allows a⟩
    | _ => trivial
  | _ => trivial

end Conduct

namespace Client

variable {c : Client} (hl : c.Ledger)

include hl

theorem keeps_dropPending (id : Nat) : c.Keeps (c.dropPending id) :=
  .of_step (.take id (.inl trivial)) hl

/-- A call that settles keeps its place. -/
theorem keeps_settle {id : Nat} {call : Call} (found : c.call? id = some call)
    (pending : call.status = .pending) (v : Verdict) :
    c.Keeps ((c.dropPending id).updateCall id (Call.settle v)) := by
  refine (keeps_dropPending hl id).trans
    (.of_step ?_ (hl.dropPending id))
  exact .settleTaken found pending (fun _ => ne_of_mem_dropPending) (.inl trivial) trivial
    v.settling

theorem keeps_cancel {id : Nat} {call : Call} (found : c.call? id = some call)
    (pending : call.isPending) : c.Keeps ((c.updateCall id Call.cancel).dropPending id) :=
  .of_step (.cancel found pending) hl

/-- The end of a connection forgets who waits and leaves the calls. -/
theorem keeps_disconnect : c.Keeps c.disconnect :=
  .of_step .disconnect hl

theorem keeps_await (id : Nat) {onResult onError : List Continuation}
    (plain : ∀ q ∈ onResult ++ onError, q.isOfFetch = false) :
    c.Keeps (c.updateCall id (Call.await onResult onError)) :=
  .of_step
    (.await onResult onError (fun q _ => Conduct.any_awaits id q) plain) hl

theorem keeps_addCall {method : String} (kind : CallKind) {onResult onError : List Continuation}
    {t : Treatment} (account : t = .account → method ∈ accountMethods)
    (plain : ∀ q ∈ onResult ++ onError, q.isOfFetch = false) :
    c.Keeps (c.addCall (.start c.nextId method kind onResult onError) t) :=
  .of_step
    (.make kind ⟨fun q _ => Conduct.any_awaits _ q, account, fun _ => trivial, .inl plain⟩) hl

end Client

theorem Conduct.Plain.isOfFetch {id : Nat} {q : Continuation} (h : k.Plain id q) :
    q.isOfFetch = false := by
  cases q with
  | fetched _ _ | fetchFailed _ => exact h.elim
  | _ => rfl

theorem Greeting.Stage.isOfFetch_onResult (s : Greeting.Stage) :
    ∀ q ∈ s.onResult g ++ World.reactions g.handshake.onError, q.isOfFetch = false := by
  have hreactions : ∀ r : Option Reaction, ∀ q ∈ World.reactions r, q.isOfFetch = false := by
    intro r q hq
    obtain ⟨_, -, rfl⟩ := List.mem_map.1 hq
    rfl
  refine List.forall_mem_append.2 ⟨?_, hreactions _⟩
  cases s with
  | asking => exact hreactions _
  | _ => simp [onResult, Continuation.isOfFetch]

namespace World

variable {w w' w'' : World}

/-! ## What was answered stays answered -/

/-- A request that has succeeded has succeeded for good. -/
theorem Succeeded.keeps {method : String} {r : Reply} (h : w.Succeeded method r)
    (hl : w.client.Ledger) (hk : w.client.Keeps w'.client) : w'.Succeeded method r := by
  obtain ⟨c, hc, hm, hs, hr⟩ := h
  obtain ⟨c', hc', he⟩ := hk.evolves (hl.call?_of_mem hc)
  obtain ⟨hs', hr', -⟩ := he.settled (by simp [hs])
  exact ⟨c', Client.mem_of_call? hc', he.method.trans hm, hs'.trans hs, hr'.trans hr⟩

end World

/-- A callback that was right to come stays so, since what it was told has settled. -/
theorem Greeting.Rightly.keeps {w w' : World} {x : String × CallbackKind × Outcome}
    (h : g.Rightly w x) (hl : w.client.Ledger) (hk : w.client.Keeps w'.client) :
    g.Rightly w' x := by
  cases h with
  | ready given answered => exact .ready given (answered.keeps hl hk)
  | error given f => exact .error given f

theorem Event.greeting?_of_isAside {e : Event} (h : e.isAside) : e.greeting? = none := by
  cases e with
  | sent payload => cases h
  | _ => rfl

/-! ## What a stretch of a run does -/

namespace World

/-- A handshake gets from one point to another, handing over its messages in between. -/
structure Advances (k : Conduct) (g : Greeting) (p q : Greeting.Progress)
    (w w' : World) : Prop where
  reached : w'.Reached k g q
  greets : ∃ ms, Greets ms w w' ∧ q.handed = p.handed ++ ms
  keeps : w.client.Keeps w'.client

end World

/-- A host of which it is sure that a callback will hear of the handshake in the end. -/
def Conduct.Assures (k : Conduct) (g : Greeting) : Prop := k.Patient ∧ g.IsFull

/-- Where a handshake may get to while none of its outcomes is in hand: it does not get on once it
has halted, and one that waits does not halt in silence if that is assured. -/
def Greeting.Progress.Follows (assured : Prop) (p q : Greeting.Progress) : Prop :=
  match p with
  | .waiting _ _ => assured → ¬ q.Silent
  | .halted _ _ => q = p

namespace World

variable {w w' w'' : World}

/-- None of the outcomes of the handshake is in hand. -/
def Abides (k : Conduct) (g : Greeting) (w w' : World) : Prop :=
  ∀ p, w.Reached k g p → ∃ q, Advances k g p q w w' ∧ p.Follows (k.Assures g) q

end World

def Runner.Abides (k : Conduct) (g : Greeting) (run : Runner) : Prop :=
  ∀ i w, k.Runs i → World.Abides k g w (run i w).2

namespace Greeting.Progress

variable {assured : Prop}

theorem Follows.refl (p : Progress) : p.Follows assured p := by
  cases p with
  | waiting s id => exact fun _ h => h
  | halted handed heard => rfl

theorem Follows.trans (h : p.Follows assured q) (h' : q.Follows assured r) :
    p.Follows assured r := by
  cases p with
  | halted handed heard => exact (show q = _ from h) ▸ h'
  | waiting s id =>
    intro ha
    cases q with
    | waiting s' id' => exact h' ha
    | halted handed heard => exact (show r = _ from h') ▸ h ha

@[simp] theorem handed_settled (id : Nat) (p : Progress) : (p.settled id).handed = p.handed := by
  cases p with
  | waiting s i => by_cases h : id = i <;> simp [settled, handed, h]
  | halted handed heard => rfl

@[simp] theorem heard_settled (id : Nat) (p : Progress) : (p.settled id).heard = p.heard := by
  cases p with
  | waiting s i => by_cases h : id = i <;> simp [settled, heard, h]
  | halted handed heard => rfl

end Greeting.Progress

namespace World

variable {w w' w'' : World}

namespace Advances

theorem refl (h : w.Reached k g p) : Advances k g p p w w :=
  ⟨h, ⟨[], .nothing rfl rfl, by simp⟩, .refl _⟩

theorem trans (h : Advances k g p q w w') (h' : Advances k g q r w' w'') :
    Advances k g p r w w'' := by
  obtain ⟨ms, hms, hq⟩ := h.greets
  obtain ⟨ms', hms', hr⟩ := h'.greets
  exact ⟨h'.reached, ⟨ms ++ ms', hms.append hms', by rw [hr, hq, List.append_assoc]⟩,
    h.keeps.trans h'.keeps⟩

end Advances

namespace Abides

theorem refl (w : World) : Abides k g w w := fun p h => ⟨p, .refl h, .refl p⟩

theorem trans (h : Abides k g w w') (h' : Abides k g w' w'') : Abides k g w w'' := by
  intro p hp
  obtain ⟨q, hq, hpq⟩ := h p hp
  obtain ⟨r, hr, hqr⟩ := h' q hq.reached
  exact ⟨r, hq.trans hr, hpq.trans hqr⟩

/-- What holds wherever a handshake has got to may be used. -/
theorem of_reached (h : ∀ p, w.Reached k g p → Abides k g w w') : Abides k g w w' :=
  fun p hp => h p hp p hp

theorem foldl {α : Type} {f : World → α → World} {l : List α}
    (hf : ∀ w, ∀ a ∈ l, Abides k g w (f w a)) (w : World) : Abides k g w (l.foldl f w) :=
  List.foldlRecOn (motive := Abides k g w) l f (refl w) fun w₁ hw a ha => hw.trans (hf w₁ a ha)

end Abides

/-! ## What is no business of the handshake's -/

/-- The calls stay as they are, no message of the handshake is handed over, and no callback of it is
told anything. -/
structure Aside (k : Conduct) (g : Greeting) (w w' : World) : Prop where
  calls : w'.client.calls = w.client.calls
  pending : w'.client.pending = w.client.pending
  handlers : k.Handles w.client.handlers → k.Handles w'.client.handlers
  subscribers : (∀ label script, (label, script) ∈ w.host.subscribers → k.AllowsAll script) →
    ∀ label script, (label, script) ∈ w'.host.subscribers → k.AllowsAll script
  written : w'.written = w.written
  heard : w'.heard g = w.heard g

namespace Aside

theorem refl (w : World) : Aside k g w w := ⟨rfl, rfl, fun h => h, fun h => h, rfl, rfl⟩

theorem trans (h : Aside k g w w') (h' : Aside k g w' w'') : Aside k g w w'' :=
  ⟨h'.calls.trans h.calls, h'.pending.trans h.pending, fun hh => h'.handlers (h.handlers hh),
    fun hs => h'.subscribers (h.subscribers hs), h'.written.trans h.written,
    h'.heard.trans h.heard⟩

theorem keeps (h : Aside k g w w') : w.client.Keeps w'.client := .of_eq h.calls h.pending

theorem reached (ha : Aside k g w w') (h : w.Reached k g p) : w'.Reached k g p where
  client := h.client.aside ha.calls ha.pending (ha.handlers h.client.handlers)
  subscribers := ha.subscribers h.subscribers
  order := h.order
  heard := ha.heard.trans h.heard
  once := h.once
  rightly x hx := (h.rightly x hx).keeps h.client.ledger ha.keeps

theorem advances (ha : Aside k g w w') (h : w.Reached k g p) : Advances k g p p w w' :=
  ⟨ha.reached h, ⟨[], .nothing ha.written (by simp only [requested, ha.calls]), by simp⟩, ha.keeps⟩

theorem abides (ha : Aside k g w w') : Abides k g w w' :=
  fun p h => ⟨p, ha.advances h, .refl p⟩

end Aside

/-- Nothing happens but that some events are added. -/
theorem Adds.aside {es : List Event} (h : w.Adds w' es)
    (written : es.filterMap Event.greeting? = [])
    (heard : ∀ e ∈ es, ∀ x, e.callback? = some x → x.1 ∉ g.labels) : Aside k g w w' := by
  rw [h]
  refine ⟨rfl, rfl, fun h => h, fun h => h, ?_, ?_⟩
  · simp only [World.written, List.filterMap_append, written, List.append_nil]
  · have hnone : (es.filterMap Event.callback?).filter (fun x => g.labels.contains x.1) = [] := by
      refine List.filter_eq_nil_iff.2 fun x hx => ?_
      obtain ⟨e, he, hc⟩ := List.mem_filterMap.1 hx
      simpa using heard e he x hc
    simp only [World.heard, callbacks, List.filterMap_append, List.filter_append, hnone,
      List.append_nil]

theorem AddsAsides.aside (h : w.AddsAsides w') : Aside k g w w' := by
  obtain ⟨es, he, ha⟩ := h
  refine he.aside (List.filterMap_eq_nil_iff.2 fun e h => Event.greeting?_of_isAside (ha e h)) ?_
  intro e h x hx
  simp [Event.callback?_of_isAside (ha e h)] at hx

/-- Whatever leaves the client, the host and what the callbacks have heard alone. -/
theorem Reached.congr (h : w.Reached k g p) (client : w'.client = w.client)
    (host : w'.host = w.host) (heard : w'.heard g = w.heard g) : w'.Reached k g p where
  client := client ▸ h.client
  subscribers := host ▸ h.subscribers
  order := h.order
  heard := heard.trans h.heard
  once := h.once
  rightly x hx := (h.rightly x hx).keeps h.client.ledger (client ▸ .refl _)

/-! ## Changes of the calls -/

/-- The calls change and no message of the handshake is handed over. -/
theorem Reached.advances {c : Client} (h : w.Reached k g p) (carries : c.Carries k g q)
    (keeps : w.client.Keeps c)
    (requested : (c.calls.map Call.method).filter Handshake.isGreeting = w.requested)
    (handed : q.handed = p.handed) (heard : q.heard = p.heard) :
    Advances k g p q w { w with client := c } where
  reached :=
    { client := carries
      subscribers := h.subscribers
      order := handed ▸ h.order
      heard := h.heard.trans heard.symm
      once := heard ▸ h.once
      rightly := fun x hx => (h.rightly x (heard ▸ hx)).keeps h.client.ledger keeps }
  greets := ⟨[], .nothing rfl requested, by simp [handed]⟩
  keeps := keeps

/-- A call settles, and what waits for its outcome is still to be told. -/
theorem Reached.settle (h : w.Reached k g p) {id : Nat} {call : Call}
    (found : w.client.call? id = some call) (pending : call.status = .pending) (v : Verdict) :
    Advances k g p (p.settled id) w (w.endCall id (Call.settle v)) :=
  h.advances (h.client.settle id v) (Client.keeps_settle h.client.ledger found pending v)
    (congrArg _ (Client.methods_updateCall v.settling.method id _)) (by simp) (by simp)

/-- What has settled, or is no request of the handshake, leaves the table. -/
theorem abides_dropPending {id : Nat}
    (hid : ∀ call, w.client.call? id = some call → call.isGreeting → call.status ≠ .pending) :
    Abides k g w (w.updateClient fun c => c.dropPending id) :=
  fun p h => ⟨p, h.advances (h.client.dropPending hid)
    (Client.keeps_dropPending h.client.ledger id) rfl rfl rfl, .refl p⟩

/-- The end of a connection leaves a handshake where it is. -/
theorem abides_disconnect (hk : ¬ k.Patient) : Abides k g w (w.updateClient Client.disconnect) :=
  fun p h => ⟨p, h.advances (h.client.disconnect hk) (Client.keeps_disconnect h.client.ledger)
    rfl rfl rfl, .refl p⟩

/-- A call that waits is given up. -/
theorem abides_cancel (hk : ¬ k.Patient) {id : Nat} {call : Call}
    (found : w.client.call? id = some call) (pending : call.isPending) :
    Abides k g w (w.updateClient fun c => (c.updateCall id Call.cancel).dropPending id) := by
  intro p h
  refine ⟨p.settled id, h.advances (h.client.cancel id hk)
    (Client.keeps_cancel h.client.ledger found pending)
    (congrArg _ (Client.methods_updateCall (f := Call.cancel) (fun _ => rfl) id _)) (by simp)
    (by simp), ?_⟩
  cases p with
  | waiting s i => exact fun ha => absurd ha.1 hk
  | halted handed heard => rfl

/-- Something that has nothing to do with the handshake waits for a call. -/
theorem abides_await {id : Nat} {onResult onError : List Continuation}
    (plain : ∀ q ∈ onResult ++ onError, k.Plain id q) :
    Abides k g w (w.updateClient fun c => c.updateCall id (Call.await onResult onError)) :=
  fun p h => ⟨p, h.advances (h.client.awaitPlain plain)
    (Client.keeps_await h.client.ledger id fun q hq => (plain q hq).isOfFetch)
    (congrArg _ (Client.methods_updateCall (f := Call.await onResult onError) (fun _ => rfl) id _))
    rfl rfl, .refl p⟩

end World

end GhostText
