import GhostText.Proofs.Client.Settling
import GhostText.Proofs.Fetch.Order

/-!
# Hosts that tend to their fetches

A fetch is in the table while its request is unanswered. A host that gives up no call and leaves the
account and the status alone keeps it so: what ends a request ends its fetch. This module says what
such a host may do, what holds of its worlds, and what its operations keep, the last first for what
concerns neither table.
-/

namespace GhostText

/-! ## What the host does -/

namespace Action

/-- With these the host gives up the connection. -/
def closes : Action → Bool
  | .client .close => true
  | .client .stopTransport => true
  | _ => false

/-- What a host may do that gives up no call, adds to none, and asks for no account. -/
def tends : Action → Bool
  | .within _ _ => true
  | .raise _ => true
  | .context _ => true
  | .task _ => true
  | .client (.cancelRequest _) => false
  | .client (.cancelCall _) => false
  | .client (.andThen _ _) => false
  | .client (.startServer _ _) => false
  | .client _ => true
  | .assistant (.checkStatus _ _) => false
  | .assistant (.confirmSignIn _ _) => false
  | .assistant (.signOut _) => false
  | .assistant (.handshake _ _ _ _ _ _ _) => false
  | .assistant (.accountStatus _) => false
  | .assistant (.requestActivity _) => false
  | .assistant _ => true
  | _ => false

end Action

def Json.isNumeric (v : Json) : Bool := v.toInteger.isOk

/-- Attributes that a fetch can tell the server. -/
def FetchSettings.isTyped (s : FetchSettings) : Bool :=
  s.workspaceFolder.all Json.isText && s.activeFile.all Json.isText &&
    s.tabSize.all Json.isNumeric

/-- With these every fetch that is started can be asked for. -/
def Action.isTyped : Action → Bool
  | .task (.start position _) => position.toJson.isOk
  | .task (.configure s) => s.isTyped
  | _ => true

namespace Conduct

variable (k : Conduct)

def Tends : Prop := ∀ a, k.does a → a.tends

/-- Every fetch of the host's can be asked for. -/
def Typed : Prop := ∀ a, k.does a → a.isTyped

/-- The host does not give up the connection. -/
def StaysOpen : Prop := ∀ a, k.does a → a.closes = false

/-- Whoever takes the completions of a fetch keeps to the conduct. -/
def Delivers : CompletionSink → Prop
  | .nobody => True
  | .host c => k.AllowsAll c.script
  | .controller => False

def Runs : Invocation → Prop
  | .script _ s => k.AllowsAll s
  | .deliver _ => True

/-- A callback of the host that keeps to the conduct. -/
def Answers (q : Continuation) : Prop :=
  ∃ kind c, q = .reaction (.host kind c) ∧ k.AllowsAll c.script

end Conduct

/-! ## What holds of the world -/

/-- The notification by which the server gives its own status. -/
def statusMethod : String := "statusNotification"

def Event.givesStatus : Event → Bool
  | .signalled (.notificationReceived method _) => method = statusMethod
  | _ => false

/-- The handler that takes on the status of the server stands under no other method. -/
def Handlers.StatusHandled (h : Handlers) : Prop :=
  ∀ method, (method, .serverStatus) ∈ h.notifications → method = statusMethod

/-- A call that has not settled and whose outcome ends a fetch. -/
structure Call.IsFor (c : Call) (task : Nat) (sink : CompletionSink) : Prop where
  method : c.method = completionsMethod
  pending : c.status = .pending
  onResult : c.onResult = [.fetched task sink]
  onError : c.onError = [.fetchFailed task]

/-- A call asks for the completions of a fetch and was neither answered nor refused. -/
def Client.AsksFor (c : Client) (id task : Nat) (sink : CompletionSink) : Prop :=
  ∃ call, c.call? id = some call ∧ call.IsFor task sink

namespace Fetches

/-- Attributes that can be told. -/
structure Typed (t : Fetches) : Prop where
  workspaceFolder : t.workspaceFolder.isText = true
  activeFile : t.activeFile.isText = true
  tabSize : t.tabSize.isNumeric = true

structure Over (t : Fetches) (task : Nat) : Prop where
  started : task ≤ t.started
  gone : task ∉ t.ids

end Fetches

namespace World

/-- A call that has not settled is for a fetch, or the host waits for it. -/
structure Fetching (k : Conduct) (w : World) : Prop where
  ledger : w.client.Ledger
  asks : ∀ id call, w.client.call? id = some call → call.status = .pending →
    (∃ task sink, call.IsFor task sink ∧ k.Delivers sink ∧ task ≤ w.fetches.started) ∨
      ∀ q ∈ call.onResult ++ call.onError, k.Answers q
  treatments : ∀ p ∈ w.client.pending, p.treatment ≠ .account ∧
    (p.treatment = .completions ∨ ∀ task sink, ¬ w.client.AsksFor p.id task sink)
  handlers : k.Handles w.client.handlers
  statusHandler : w.client.handlers.StatusHandled
  subscribers : ∀ label script, (label, script) ∈ w.host.subscribers → k.AllowsAll script
  numbered : ∀ task ∈ w.fetches.ids, task ≤ w.fetches.started

/-- The server has not given a status of its own. -/
def OwnStatus (w : World) : Prop := ∀ e ∈ w.events, e.givesStatus = false

instance (w : World) : Decidable w.OwnStatus :=
  inferInstanceAs (Decidable (∀ e ∈ w.events, e.givesStatus = false))

/-- There is activity exactly while a fetch is wanted. -/
def Agrees (w : World) : Prop :=
  w.assistant.status = .inProgress ↔ ∃ task, w.fetches.Wants task

/-- The request of a fetch is unanswered. -/
def Awaits (w : World) (task : Nat) : Prop := ∃ id sink, w.client.AsksFor id task sink

/-- What has not settled waits for its answer, as far as it is recent. -/
def Remembers (w : World) (recent : Nat → Prop) : Prop :=
  ∀ id call, recent id → w.client.call? id = some call → call.status = .pending →
    id ∈ w.client.pendingIds

/-- What holds in the midst of an operation, too: a request stays unanswered or its fetch is over.
Where the connection is open throughout, what waits for its answer waits on. -/
structure Keeps (k : Conduct) (o : Prop) (w w' : World) : Prop where
  fetching : w'.Fetching k
  events : w.events <+: w'.events
  numbers : w.fetches.started ≤ w'.fetches.started
  lasting : ∀ task, w.fetches.Over task → w'.fetches.Over task
  asked : ∀ id task sink, w.client.AsksFor id task sink →
    w'.client.AsksFor id task sink ∨ w'.fetches.Over task
  remembers : o → ∀ recent, w.Remembers recent → w'.Remembers recent
  typed : k.Typed → w.fetches.Typed → w'.fetches.Typed

/-- Every fetch that is started meanwhile is asked for, if it can be. -/
structure Minds (k : Conduct) (o : Prop) (w w' : World) : Prop extends Keeps k o w w' where
  started : k.Typed → w.fetches.Typed → ∀ task ∈ w'.fetches.ids,
    task ∈ w.fetches.ids ∨ w'.Awaits task

/-- What is done as a whole leaves the two tables in step, and the status, too, if the server gives
none. -/
structure Tends (k : Conduct) (o : Prop) (w w' : World) : Prop extends Minds k o w w' where
  status : w'.OwnStatus → w.Agrees → w'.Agrees

end World

def Runner.Tends (k : Conduct) (o : Prop) (run : Runner) : Prop :=
  ∀ i w, k.Runs i → w.Fetching k → World.Tends k o w (run i w).2

theorem Client.AsksFor.congr {c c' : Client} (calls : c'.calls = c.calls) {id task : Nat}
    {sink : CompletionSink} (h : c.AsksFor id task sink) : c'.AsksFor id task sink := by
  simpa only [Client.AsksFor, Client.call?, calls] using h

namespace World

variable {k : Conduct} {o : Prop} {w w' w'' : World}

/-- If the server gives no status of its own in a run, it gives none in its beginning. -/
theorem OwnStatus.of_prefix (h : w'.OwnStatus) (he : w.events <+: w'.events) :
    w.OwnStatus :=
  fun e hm => h e (he.subset hm)

namespace Keeps

theorem refl (h : w.Fetching k) : Keeps k o w w :=
  ⟨h, List.prefix_refl _, Nat.le_refl _, fun _ h => h, fun _ _ _ h => .inl h, fun _ _ h => h,
    fun _ h => h⟩

theorem trans (h : Keeps k o w w') (h' : Keeps k o w' w'') : Keeps k o w w'' where
  fetching := h'.fetching
  events := h.events.trans h'.events
  numbers := Nat.le_trans h.numbers h'.numbers
  lasting task ho := h'.lasting task (h.lasting task ho)
  asked id task sink ha :=
    (h.asked id task sink ha).elim (h'.asked id task sink) fun ho => .inr (h'.lasting task ho)
  remembers hs recent hm := h'.remembers hs recent (h.remembers hs recent hm)
  typed hk ht := h'.typed hk (h.typed hk ht)

/-- A fetch whose request is unanswered is so still, or it is over. -/
theorem awaits_or_over (h : Keeps k o w w') {task : Nat} (hw : w.Awaits task) :
    w'.Awaits task ∨ w'.fetches.Over task := by
  obtain ⟨id, sink, ha⟩ := hw
  exact (h.asked id task sink ha).imp_left fun ha' => ⟨id, sink, ha'⟩

end Keeps

namespace Minds

theorem refl (h : w.Fetching k) : Minds k o w w :=
  ⟨.refl h, fun _ _ _ h => .inl h⟩

theorem trans (h : Minds k o w w') (h' : Minds k o w' w'') : Minds k o w w'' := by
  refine ⟨h.toKeeps.trans h'.toKeeps, fun hk ht task hm => ?_⟩
  rcases h'.started hk (h.typed hk ht) task hm with hm' | hw
  · rcases h.started hk ht task hm' with hm | hw
    · exact .inl hm
    · exact .inr ((h'.awaits_or_over hw).resolve_right fun ho => ho.gone hm)
  · exact .inr hw

end Minds

namespace Tends

theorem refl (h : w.Fetching k) : Tends k o w w :=
  ⟨.refl h, fun _ h => h⟩

theorem trans (h : Tends k o w w') (h' : Tends k o w' w'') : Tends k o w w'' :=
  ⟨h.toMinds.trans h'.toMinds,
    fun hu ha => h'.status hu (h.status (hu.of_prefix h'.events) ha)⟩

theorem foldl {α : Type} {f : World → α → World} {l : List α}
    (hf : ∀ w, w.Fetching k → ∀ a ∈ l, Tends k o w (f w a)) (h : w.Fetching k) :
    Tends k o w (l.foldl f w) :=
  List.foldlRecOn (motive := Tends k o w) l f (refl h) fun w₁ hw a ha =>
    hw.trans (hf w₁ hw.fetching a ha)

end Tends

/-! ## What concerns neither table -/

structure Idles (w w' : World) : Prop where
  calls : w'.client.calls = w.client.calls
  pending : w'.client.pending = w.client.pending
  handlers : w'.client.handlers = w.client.handlers
  subscribers : w'.host.subscribers = w.host.subscribers
  fetches : w'.fetches = w.fetches
  status : w'.assistant.status = w.assistant.status
  events : w.events <+: w'.events

namespace Idles

theorem refl (w : World) : w.Idles w := ⟨rfl, rfl, rfl, rfl, rfl, rfl, List.prefix_refl _⟩

theorem trans (h : w.Idles w') (h' : w'.Idles w'') : w.Idles w'' :=
  ⟨h'.calls.trans h.calls, h'.pending.trans h.pending, h'.handlers.trans h.handlers,
    h'.subscribers.trans h.subscribers, h'.fetches.trans h.fetches, h'.status.trans h.status,
    h.events.trans h'.events⟩

end Idles

/-- What waits may be forgotten, and nothing else happens to the calls and the fetches. -/
theorem Fetching.congr (h : w.Fetching k) (calls : w'.client.calls = w.client.calls)
    (pending : w'.client.pending.Sublist w.client.pending)
    (handlers : w'.client.handlers = w.client.handlers)
    (subscribers : w'.host.subscribers = w.host.subscribers)
    (started : w'.fetches.started = w.fetches.started)
    (ids : w'.fetches.ids = w.fetches.ids) : w'.Fetching k := by
  have hcall : ∀ id, w'.client.call? id = w.client.call? id := fun id => by
    simp only [Client.call?, calls]
  refine ⟨⟨?_, fun p hp => ?_, ?_⟩, fun id call hc hs => ?_, fun p hp => ?_, ?_, ?_, ?_, ?_⟩
  · rw [calls]
    exact h.ledger.ids
  · rw [hcall]
    exact h.ledger.waiting p (pending.subset hp)
  · exact h.ledger.ordered.sublist (pending.map _)
  · rw [started]
    exact h.asks id call ((hcall id).symm.trans hc) hs
  · exact (h.treatments p (pending.subset hp)).imp_right fun ht =>
      ht.imp_right fun hn task sink ha => hn task sink (ha.congr calls.symm)
  · rw [handlers]
    exact h.handlers
  · rw [handlers]
    exact h.statusHandler
  · rw [subscribers]
    exact h.subscribers
  · rw [ids, started]
    exact h.numbered

/-- What leaves both tables as they are minds the fetches, whatever else it does. -/
theorem Minds.of_tables (fetching : w'.Fetching k) (calls : w'.client.calls = w.client.calls)
    (pending : w'.client.pending = w.client.pending) (fetches : w'.fetches = w.fetches)
    (events : w.events <+: w'.events) : Minds k o w w' where
  fetching := fetching
  events := events
  numbers := Nat.le_of_eq (by rw [fetches])
  lasting _ ho := fetches ▸ ho
  asked _ _ _ ha := .inl (ha.congr calls)
  remembers _ m hm id call hid hc hs := by
    simp only [Client.call?, calls, Client.pendingIds, pending] at hc ⊢
    exact hm id call hid hc hs
  typed _ ht := fetches ▸ ht
  started _ _ task hm := .inl (fetches ▸ hm)

theorem Idles.tends (hi : w.Idles w') (h : w.Fetching k) : Tends k o w w' where
  toMinds := .of_tables (h.congr hi.calls (by rw [hi.pending]) hi.handlers hi.subscribers
    (by rw [hi.fetches]) (by rw [hi.fetches])) hi.calls hi.pending hi.fetches hi.events
  status _ ha := by
    rw [Agrees, hi.status, hi.fetches]
    exact ha

theorem Adds.idles {es : List Event} (h : w.Adds w' es) : w.Idles w' := by
  rw [h]
  exact ⟨rfl, rfl, rfl, rfl, rfl, rfl, List.prefix_append _ _⟩

theorem AddsAsides.idles (h : w.AddsAsides w') : w.Idles w' := by
  obtain ⟨es, he, -⟩ := h
  exact he.idles

/-- What is done for the peer concerns neither table. -/
theorem Replies.idles (h : w.Replies w') : w.Idles w' := by
  obtain ⟨es, he, -⟩ := h.events
  refine ⟨h.calls, h.pending, h.handlers, ?_, ?_, ?_, ⟨es, he.symm⟩⟩
  all_goals rw [h.rest]

theorem idles_record (e : Event) (w : World) : w.Idles (w.record e) := (adds_record e w).idles

theorem idles_clientLog (level : LogLevel) (text : String) (w : World) :
    w.Idles (w.clientLog level text) :=
  (addsAsides_clientLog ..).idles

theorem idles_post (payload : Json) (w : World) : w.Idles (w.post payload).2 := by
  obtain ⟨es, -, he⟩ := post_adds payload w
  exact he.idles

theorem idles_notify (method : String) (params : Json) (w : World) :
    w.Idles (w.notify method params) :=
  idles_post ..

/-- A change of the client that concerns neither the calls nor the handlers. -/
theorem idles_client {c : Client} (calls : c.calls = w.client.calls)
    (pending : c.pending = w.client.pending) (handlers : c.handlers = w.client.handlers) :
    w.Idles { w with client := c } :=
  ⟨calls, pending, handlers, rfl, rfl, rfl, List.prefix_refl _⟩

/-- Bytes concern no fetch before they are read as messages. -/
theorem idles_feed (bytes : List UInt8) (w : World) : w.Idles (w.feed bytes) := by
  have hreader : w.Idles
      (w.updateClient fun c => { c with reader := (w.client.reader.feed bytes).reader }) :=
    idles_client rfl rfl rfl
  exact hreader.trans (addsAsides_feed bytes w).idles

/-! ## What the host tells the server -/

theorem idles_didOpen (uri languageId version text : Json) (w : World) :
    w.Idles (didOpen uri languageId version text w).2 := by
  unfold didOpen
  split
  · exact .refl w
  · exact idles_notify ..

theorem idles_didChange (uri version changes : Json) (w : World) :
    w.Idles (didChange uri version changes w).2 := by
  unfold didChange
  split
  · exact .refl w
  · exact .refl w
  · exact idles_notify ..

theorem idles_didChangeFolders (added removed : Json) (w : World) :
    w.Idles (didChangeFolders added removed w).2 := by
  unfold didChangeFolders
  split
  · exact .refl w
  · exact .refl w
  · exact idles_notify ..

theorem idles_version (n : Nat) (w : World) :
    w.Idles (w.updateAssistant fun a => { a with version := n }) :=
  ⟨rfl, rfl, rfl, rfl, rfl, rfl, List.prefix_refl _⟩

theorem idles_changeVersion (uri changes : Json) (w : World) :
    w.Idles (changeVersion uri changes w).2 := by
  rw [snd_changeVersion]
  exact (idles_version ..).trans (idles_didChange ..)

end World

end GhostText
