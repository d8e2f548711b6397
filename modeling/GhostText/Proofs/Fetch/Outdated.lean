import GhostText.Proofs.Client.Cancelling
import GhostText.Proofs.Fetch.Order
import GhostText.Proofs.Session.Ending

/-!
# Answers that are outdated

Where only the host itself asks for completions and has answers read, the fetches stay in order from
operation to operation. So the answer to a call finds its fetch given up once completions were asked
for again, and what it brings is turned down.
-/

namespace GhostText

/-! ## Hosts that ask by themselves only -/

/-- A reticent host whose scripts ask for no completion. -/
structure Conduct.Abstains (k : Conduct) : Prop extends Conduct.Reticent k where
  asks : ∀ a, k.does a → a.asks = false

def Action.isAbstaining (a : Action) : Bool := a.isReticent && !a.asks

theorem Conduct.abstains_ofKind {kind : Action → Bool} (h : ∀ a, kind a → a.isAbstaining) :
    (Conduct.ofKind kind).Abstains := by
  simp only [Action.isAbstaining, Bool.and_eq_true, Bool.not_eq_true'] at h
  exact { Conduct.reticent_ofKind fun a ha => (h a ha).1 with asks := fun a ha => (h a ha).2 }

/-- The regime of such a host between its own actions. -/
def Conduct.abstention (k : Conduct) (h : k.Abstains) : Regime where
  toConduct := k
  holds _ := True
  asks := False
  engages := False
  asks_of a ha hasks := by simp [h.asks a ha] at hasks
  engages_of a ha he := by simp [h.engages a ha] at he

variable {k : Conduct}

theorem Conduct.Abstains.own (h : k.Abstains) (position : UncheckedPosition)
    (c : Option (Callback Action)) : ¬ k.does (.task (.start position c)) := fun ha => by
  simpa [Action.asks] using h.asks _ ha

theorem Regime.Sound.abstention {w : World} (hw : k.free.Sound w) (h : k.Abstains)
    (ht : w.transport.answers = []) : (k.abstention h).Sound w :=
  ⟨hw.bound, hw.ledger, hw.held, .inl ht⟩

/-! ## Sessions that begin -/

/-- The completion with which the controller starts a session. -/
def Event.starts? : Event → Option String
  | .signalled (.sessionStarted uuid) => some uuid
  | _ => none

def World.started (w : World) : List String := w.events.filterMap Event.starts?

theorem Event.starts?_of_isAside {e : Event} (h : e.isAside) : e.starts? = none := by
  unfold Event.starts?
  split <;> simp_all [Event.isAside]

namespace World

variable {w w' : World} {es : List Event}

theorem started_of_events (h : w'.events = w.events ++ es) (hes : ∀ e ∈ es, e.starts? = none) :
    w'.started = w.started := by
  rw [started, h, List.filterMap_append, List.filterMap_eq_nil_iff.2 hes, List.append_nil, started]

theorem started_record {e : Event} (h : e.starts? = none) (w : World) :
    (w.record e).started = w.started :=
  started_of_events rfl (List.forall_mem_singleton.2 h)

theorem started_post (payload : Json) (w : World) : (w.post payload).2.started = w.started := by
  obtain ⟨es, ha, he⟩ := post_adds payload w
  rw [he]
  refine started_of_events rfl (List.forall_mem_append.2 ⟨?_, fun e he =>
    Event.starts?_of_isAside (ha e he)⟩)
  split <;> simp [Event.starts?]

/-- The end of a session begins none. -/
theorem Finishes.started {n : Nat} {s : Session} (h : w.Finishes w' n s) :
    w'.started = w.started := by
  obtain ⟨es, ha, he⟩ := h.told
  refine started_of_events he (List.forall_mem_append.2 ⟨?_, List.forall_mem_append.2
    ⟨fun e he => Event.starts?_of_isAside (ha e he), ?_⟩⟩)
  · split <;> simp [Event.starts?]
  · unfold Session.finish
    split <;> simp [Event.starts?]

end World

section Regimes

variable {r : Regime} {w w' : World}

/-- A step in which nothing is presented begins no session. -/
theorem SessionStep.started (h : SessionStep r w w') (he : ¬ r.engages) :
    w'.started = w.started := by
  cases h with
  | propose _ _ _ => rfl
  | @start n s _ _ _ _ =>
    obtain ⟨es, ha, he⟩ := World.startSession_told n s w
    refine World.started_of_events he (List.forall_mem_append.2 ⟨?_, fun e he =>
      Event.starts?_of_isAside (ha e he)⟩)
    split <;> simp [Event.starts?]
  | bring _ _ engages => exact absurd engages he
  | withdraw _ _ _ =>
    rw [World.started, World.events_removeSuggestion]
    rfl
  | @discard n s reason found _ _ =>
    exact (World.finishes_rejected (World.session?_beginClosing_self found) reason).started
  | fail reason found _ _ => exact (World.finishes_rejected found reason).started
  | succeed found _ _ => exact (World.finishes_accepted found).started

/-- Where nothing is presented no session of the controller's begins. -/
theorem Step.started (h : Step r w w') (he : ¬ r.engages) : w'.started = w.started := by
  cases h with
  | note aside => exact World.started_record (Event.starts?_of_isAside aside) w
  | session step => exact step.started he
  | document step =>
    obtain ⟨es, hevents, hes⟩ := step.informs.events
    refine World.started_of_events hevents fun e hm => ?_
    rcases hes e hm with haside | ⟨v, rfl, -⟩
    · exact Event.starts?_of_isAside haside
    · rfl
  | @callBack id label kind o _ _ =>
    exact World.started_record (e := .calledBack label kind o) rfl w
  | @send payload _ _ _ =>
    exact World.started_record (e := .sent payload) rfl w
  | _ => rfl

/-- Along a row of steps in which nothing is presented no session begins. -/
theorem Steps.started (h : Steps r w w') (he : ¬ r.engages) : w'.started = w.started := by
  induction h with
  | refl => rfl
  | tail _ step ih => exact (step.started he).trans ih

/-- What has happened stays. -/
theorem Steps.events_prefix (h : Steps r w w') : w.events <+: w'.events := by
  induction h with
  | refl => exact List.prefix_rfl
  | tail _ step ih =>
    obtain ⟨es, he, -⟩ := step.events
    exact ih.trans (he ▸ List.prefix_append ..)

theorem Steps.accepting (h : Steps r w w') (he : ¬ r.engages)
    (hw : ∀ b, ¬ r.does (.client (.acceptWrites b))) :
    w'.transport.accepting = w.transport.accepting := by
  obtain ⟨order, hends⟩ := Steps.ends h he hw
  exact hends.accepting

end Regimes

/-! ## Calls that end fetches -/

/-- Only a call that asks for completions ends a fetch. -/
def Client.FetchesAsk (c : Client) : Prop :=
  ∀ id call, c.call? id = some call → ∀ q ∈ call.onResult ++ call.onError, q.isOfFetch = true →
    call.method = completionsMethod

instance (c : Client) (id : Nat) : Decidable (c.Asked id) :=
  decidable_of_iff ((c.call? id).any fun call => call.method = completionsMethod) (by
    simp [Client.Asked, Option.any_eq_true])

theorem Client.FetchesAsk.asked {c : Client} (h : c.FetchesAsk) {id task : Nat}
    (ht : c.taskOf? id = some task) : c.Asked id := by
  obtain ⟨call, hc, htask⟩ := Option.bind_eq_some_iff.1 ht
  refine ⟨call, hc, ?_⟩
  by_contra hm
  have hnothing : call.FetchesNothing := fun q hq => by
    by_contra hf
    exact hm (h id call hc q hq (by simpa using hf))
  simp [hnothing.task?_eq_none] at htask

/-- Only calls that ask for completions end fetches, whatever the client does. -/
theorem ClientStep.fetchesAsk {r : Regime} {late : Prop} {c c' : Client}
    (h : ClientStep r late c c') (hl : c.Ledger) (hc : c.FetchesAsk) : c'.FetchesAsk := by
  intro id call' hc' q hq hf
  cases hold : c.call? id with
  | some call =>
    obtain ⟨call'', hc'', hevolves⟩ := h.evolves hl hold
    obtain rfl := Option.some.inj (hc''.symm.trans hc')
    exact hevolves.method.trans (hc id call hold q (hevolves.fetches q hq hf) hf)
  | none =>
    have hupdate {i : Nat} {f : Call → Call} (hid : ∀ call, (f call).id = call.id) :
        (c.updateCall i f).call? id = none := by
      rw [Client.call?_updateCall hid, hold, Option.map_none, ite_self]
    -- the call was made in this step
    cases h with
    | make kind admits =>
      rw [Client.call?_addCall, hold, Option.none_or] at hc'
      split at hc'
      · obtain rfl := Option.some.inj hc'
        rcases admits.fetch with plain | ⟨_, _, _, hmethod, -⟩
        · simp [plain q hq] at hf
        · exact hmethod
      · cases hc'
    | aside calls _ _ =>
      rw [Client.call?, calls, ← Client.call?, hold] at hc'
      cases hc'
    | handlers _ => cases hold.symm.trans hc'
    | take _ _ => cases hold.symm.trans hc'
    | disconnect => cases hold.symm.trans hc'
    | settle _ settling => cases (hupdate settling.id).symm.trans hc'
    | settleTaken _ _ _ _ _ settling => cases (hupdate settling.id).symm.trans hc'
    | await onResult onError _ _ =>
      cases (hupdate (f := Call.await onResult onError) fun _ => rfl).symm.trans hc'
    | cancel _ _ => cases (hupdate (f := Call.cancel) fun _ => rfl).symm.trans hc'

/-- Along a row of steps only calls that ask for completions end fetches. -/
theorem Steps.fetchesAsk {r : Regime} {w w' : World} (h : Steps r w w') (hs : r.Sound w)
    (hw : w.client.FetchesAsk) : w'.client.FetchesAsk := by
  induction h with
  | refl => exact hw
  | tail steps step ih =>
    rcases step.client_eq with heq | hstep
    · exact heq ▸ ih
    · exact hstep.fetchesAsk (Steps.sound steps hs).ledger ih

/-! ## Fetches that stay in order -/

namespace World

/-- Between two operations the fetches are in order, and only calls that ask for completions end
them. -/
structure Ordered (k : Conduct) (m : Nat) (spared : Nat → Prop) (w : World) : Prop extends
    w.Standing k, w.InOrder m spared where
  fetchesAsk : w.client.FetchesAsk

variable {w w' : World} {m m' : Nat} {spared spared' : Nat → Prop} {run : Runner}

theorem Ordered.sounds (h : w.Ordered k m spared) (hk : k.Abstains) : (k.abstention hk).Sound w :=
  h.sound.abstention hk h.unready

/-- What a host that abstains does meanwhile, and what its scripts do, only takes away. -/
theorem Ordered.wanes (h : w.Ordered k m spared) (hk : k.Abstains)
    (hl : Goes (k.abstention hk) w w') : w.Wanes w' :=
  (hl.steps (h.sounds hk)).wanes (h.sounds hk) id

/-- What leaves the sessions to the host keeps the fetches in order. -/
theorem Ordered.goes (h : w.Ordered k m spared) (hk : k.Abstains)
    (hl : Goes (k.abstention hk) w w') : w'.Ordered k m spared :=
  { Standing.goes (r := k.abstention hk) h.toStanding (h.sounds hk) hk.own hl,
    h.toInOrder.wanes (h.wanes hk hl) with
    fetchesAsk := Steps.fetchesAsk (hl.steps (h.sounds hk)) (h.sounds hk) h.fetchesAsk }

theorem Ordered.leads (h : w.Ordered k m spared) (hk : k.Abstains)
    (hl : Leads (k.abstention hk) w w') : w'.Ordered k m spared :=
  h.goes hk hl.toGoes

/-- Where something else is done as well, what it does to the fetches is to be seen to. -/
theorem Ordered.free (h : w.Ordered k m spared) (hk : k.Abstains) (hl : Leads k.free w w')
    (ho : w'.InOrder m' spared') : w'.Ordered k m' spared' :=
  { Standing.goes (r := k.free) h.toStanding h.sound hk.own hl.toGoes, ho with
    fetchesAsk := Steps.fetchesAsk (hl.steps h.sound) h.sound h.fetchesAsk }

/-- At any point all calls that were made are bygone, but for the fetches that are wanted there. -/
theorem Ordered.spare (h : w.Ordered k m spared) :
    w.Ordered k w.client.nextId w.fetches.Wants :=
  { h.toStanding, h.toInOrder.spare with fetchesAsk := h.fetchesAsk }

/-! ## What is shown -/

theorem beside_present (completion : Completion) (w : World) :
    Beside w (w.present completion) := by
  unfold present
  dsimp only
  split
  · exact beside_rejectCurrent ..
  · exact (beside_rejectCurrent ..).trans (beside_bring ..)

theorem beside_takeCompletion (completion : Completion) (w : World) :
    Beside w (w.takeCompletion completion) := by
  unfold takeCompletion
  split
  · exact .refl w
  · split
    · exact beside_notifyRejected ..
    · exact beside_present ..

/-- What is shown and what is told of it concerns neither the calls nor the fetches. -/
theorem Ordered.beside (h : w.Ordered k m spared) (hk : k.Abstains) (hl : Leads k.free w w')
    (hb : Beside w w') : w'.Ordered k m spared :=
  h.free hk hl (h.toInOrder.wanes (.of_eq hb.client hb.fetches))

theorem Ordered.present (h : w.Ordered k m spared) (hk : k.Abstains) (completion : Completion) :
    (w.present completion).Ordered k m spared :=
  h.beside hk (leads_present trivial completion w) (beside_present completion w)

theorem Ordered.notifyRejected (h : w.Ordered k m spared) (hk : k.Abstains) (uuids : List String) :
    (w.notifyRejected uuids).Ordered k m spared :=
  h.beside hk (leads_report rfl trivial _ w) (beside_notifyRejected uuids w)

/-! ## The end of a fetch -/

/-- A fetch that was given up turns down what comes. -/
theorem endFetch_of_cancelled (run : Runner) {task : Nat} (hc : (w.removeFetch task).1 = true)
    (r : CompletionResult) : endFetch run task (.ok (.completions r)) w =
      if (r.completions.map Completion.uuid).isEmpty then reportIfIdle run (w.removeFetch task).2
      else (reportIfIdle run (w.removeFetch task).2).notifyRejected
        (r.completions.map Completion.uuid) := by
  unfold endFetch fetchAnswered
  dsimp only
  generalize w.removeFetch task = x at hc ⊢
  obtain ⟨cancelled, w₁⟩ := x
  obtain rfl : cancelled = true := hc
  rfl

/-- A fetch that is wanted has the first completion shown, unless the server has cancelled it. -/
theorem endFetch_of_wanted (run : Runner) {task : Nat} (hc : (w.removeFetch task).1 = false)
    (r : CompletionResult) : endFetch run task (.ok (.completions r)) w =
      match r.cancellationReason, r.completions with
      | none, first :: rest =>
        (if rest.isEmpty then reportIfIdle run (w.removeFetch task).2
          else (reportIfIdle run (w.removeFetch task).2).notifyRejected
            (rest.map Completion.uuid)).takeCompletion first
      | _, _ => reportIfIdle run (w.removeFetch task).2 := by
  unfold endFetch fetchAnswered
  dsimp only
  generalize w.removeFetch task = x at hc ⊢
  obtain ⟨cancelled, w₁⟩ := x
  obtain rfl : cancelled = false := hc
  simp only [Bool.false_eq_true, if_false]
  cases r.cancellationReason with
  | some reason => rfl
  | none => cases r.completions <;> rfl

/-- A fetch that no call ends may leave the table. -/
theorem Ordered.removeFetch (h : w.Ordered k m spared) (hk : k.Abstains) {task : Nat}
    (untied : ∀ id, w.client.taskOf? id ≠ some task) :
    (w.removeFetch task).2.Ordered k m spared :=
  h.free hk (leads_removeFetch trivial task w) (h.toInOrder.finish untied)

section Running

variable (hr : ∀ r, run.Steady r) (hk : k.Abstains)

include hr hk

theorem Ordered.reportIfIdle (h : w.Ordered k m spared) : (reportIfIdle run w).Ordered k m spared :=
  h.leads hk (leads_reportIfIdle (hr _) w)

/-- A fetch for which no call waits any more comes to its end. -/
theorem Ordered.endFetch (h : w.Ordered k m spared) {task : Nat}
    (untied : ∀ id, w.client.taskOf? id ≠ some task) (v : Verdict) :
    (endFetch run task v w).Ordered k m spared := by
  have hremoved := h.removeFetch hk untied
  have hidle := hremoved.reportIfIdle hr hk
  rcases v with f | v | r
  · exact (hremoved.leads hk (leads_log ..)).reportIfIdle hr hk
  · exact h
  · cases hc : (w.removeFetch task).1 with
    | true =>
      rw [endFetch_of_cancelled run hc]
      split
      · exact hidle
      · exact hidle.notifyRejected hk _
    | false =>
      rw [endFetch_of_wanted run hc]
      split
      · next first rest _ _ =>
        refine Ordered.beside (w := if rest.isEmpty then _ else _) ?_ hk
          (leads_takeCompletion trivial first _) (beside_takeCompletion first _)
        split
        · exact hidle
        · exact hidle.notifyRejected hk _
      · exact hidle

omit hr in
/-- When the call of a fetch settles no call waits for the fetch any more. -/
theorem Ordered.answered (h : w.Ordered k m spared) {p : PendingCall} {task : Nat} {call : Call}
    (hp : p ∈ w.client.pending) (hc : w.client.call? p.id = some call)
    (hf : call.Ends task .controller) {w₁ : World} (ha : w.AddsAsides w₁) (v : Verdict) :
    (w₁.answered p v).Ordered k m spared ∧
      ∀ id, (w₁.answered p v).client.taskOf? id ≠ some task := by
  have hlead : Leads (k.abstention hk) w (w₁.answered p v) := leads_answered hp ha v
  refine ⟨h.leads hk hlead, fun id ht => ?_⟩
  have htask : w.client.taskOf? p.id = some task := by
    rw [Client.taskOf?, hc, Option.bind_some, hf.task?_eq]
  obtain rfl := h.apart _ _ task ((h.wanes hk hlead.toGoes).client.tasks id task ht) htask
  have hc₁ : w₁.client.call? p.id = some call := by
    obtain ⟨es, he, -⟩ := ha
    rw [he]
    exact hc
  rw [Client.taskOf?, World.answered, updateClient, Client.call?_updateCall v.settling.id,
    if_pos rfl, Client.call?_dropPending, hc₁, Option.map_some, Option.bind_some,
    v.settling.task?_eq_none] at ht
  cases ht

/-- The call of a fetch settles. -/
theorem Ordered.settleBy (h : w.Ordered k m spared) {p : PendingCall} {task : Nat} {call : Call}
    (hp : p ∈ w.client.pending) (hc : w.client.call? p.id = some call)
    (hf : call.Ends task .controller) {w₁ : World} (ha : w.AddsAsides w₁) (v : Verdict) :
    (settleBy run p.id v (w₁.updateClient fun c => c.dropPending p.id)).Ordered k m spared := by
  obtain ⟨hanswered, huntied⟩ := h.answered hk hp hc hf ha v
  exact (hanswered.endFetch hr hk huntied v).leads hk
    (leads_rest (hr _) (hr _) (h.sounds hk) hp hc hf ha)

/-- A message keeps the fetches in order, whichever fetch it answers. -/
theorem Ordered.dispatch (h : w.Ordered k m spared) (b : Frame.Body) :
    (dispatch run w b).Ordered k m spared := by
  rcases dispatch_reads (hr _) (hr _) (h.sounds hk) h.paired b with
    ⟨-, hlead⟩ | ⟨p, task, v, w₁, hread, hasides, hlead⟩
  · exact h.leads hk hlead
  · obtain ⟨call, hc, hf⟩ := hread.fetches
    obtain ⟨hanswered, huntied⟩ := h.answered hk hread.waiting hc hf hasides v
    exact (hanswered.endFetch hr hk huntied v).leads hk hlead

/-! ## The beginning of a fetch -/

/-- All fetches are given up, and none is wanted then. -/
theorem Ordered.cancelFetches (h : w.Ordered k m spared) :
    (cancelFetches run w).Ordered k m spared ∧ ∀ id, ¬ (cancelFetches run w).fetches.Wants id := by
  set w₁ := w.updateFetches fun t =>
    { t with underWay := t.underWay.map fun f => { f with cancelled := true } }
  have hgiven : w₁.Ordered k m spared := h.leads hk (.single (.fetches .cancelAll) rfl rfl)
  have hreport : Leads (k.abstention hk) w₁ (World.cancelFetches run w) :=
    leads_reportActivity (hr _) false w₁
  exact ⟨hgiven.leads hk hreport, fun id hw =>
    w.fetches.not_wants_giveUpAll id ((hgiven.wanes hk hreport.toGoes).fetches.wanted id hw)⟩

/-- The completions are asked for with the fetch that was started last. -/
theorem Ordered.ask (h : w.Ordered k m spared) (hu : w.Unasked) (params : Json) :
    (request run .query (.str completionsMethod) params [.fetched w.fetches.started .controller]
      [.fetchFailed w.fetches.started] .completions w).2.Ordered k m spared := by
  set task := w.fetches.started with htask
  set id := w.client.nextId with hid
  set call := Call.start id completionsMethod .query [.fetched task .controller]
    [.fetchFailed task] with hcall
  have hfetches : call.Ends task .controller :=
    ⟨⟨[], rfl, List.forall_mem_nil _⟩, ⟨[], rfl, List.forall_mem_nil _⟩⟩
  set w₁ := w.updateClient fun c => c.addCall call .completions with hw₁
  have hadmits : k.free.Admits id completionsMethod .completions [.fetched task .controller]
      [.fetchFailed task] := by
    refine ⟨fun q hq => ?_, (fun h => by cases h), fun _ => trivial,
      .inr ⟨task, .controller, trivial, rfl, rfl, rfl, rfl, .inl rfl⟩⟩
    rcases List.mem_pair.1 hq with rfl | rfl <;> trivial
  have hmade : w₁.Ordered k m spared :=
    h.free hk (.single (.client (.make .query hadmits)) rfl rfl)
      (h.toInOrder.ask hu h.sound.ledger rfl (htask ▸ hfetches.task?_eq) .completions)
  have hcall₁ : w₁.client.call? id = some call :=
    h.sound.ledger.call?_addCall_self rfl .completions
  have hwaiting : (⟨id, completionsMethod, .completions⟩ : PendingCall) ∈ w₁.client.pending :=
    List.mem_append_right _ List.mem_cons_self
  cases haccepting : w.transport.accepting with
  | true =>
    have hposted : Leads (k.abstention hk) w₁
        (w₁.post (Message.request (.int id) completionsMethod params).toJson).2 :=
      leads_post (sends_of_id (.int id) rfl) w₁
    rw [request_eq_post run .query (.str completionsMethod) params _ _ .completions haccepting
      (by rw [h.unready, List.lookup_nil])]
    exact hmade.leads hk hposted
  | false =>
    obtain ⟨f, w₂, hasides, hrequest⟩ := request_of_refusing run .query (.str completionsMethod)
      params [.fetched task .controller] [.fetchFailed task] .completions haccepting
    rw [hrequest]
    exact hmade.settleBy hr hk hwaiting hcall₁ hfetches hasides (.error f)

/-- Where no fetch is wanted one may be started. -/
theorem Ordered.startFetch (h : w.Ordered k m spared) (hw : ∀ id, ¬ w.fetches.Wants id)
    (position : UncheckedPosition) :
    (startFetch run position .controller w).2.Ordered k m spared := by
  unfold World.startFetch
  dsimp only
  set w₁ := w.updateFetches fun t => { t with
    started := w.fetches.started + 1, underWay := t.underWay ++ [⟨w.fetches.started + 1, false⟩] }
  obtain ⟨horder, hunasked⟩ : w₁.InOrder m spared ∧ w₁.Unasked :=
    h.toInOrder.start hw rfl rfl rfl
  have hstarted : w₁.Ordered k m spared :=
    h.free hk (.single (.fetches (.start trivial)) rfl rfl) horder
  have hreport : Leads (k.abstention hk) w₁ (reportActivity run true w₁) :=
    leads_reportActivity (hr _) true w₁
  have hwanes := hstarted.wanes hk hreport.toGoes
  have hbusy := hstarted.leads hk hreport
  have hunasked := hunasked.wanes hwanes
  have hnumber : (reportActivity run true w₁).fetches.started = w.fetches.started + 1 :=
    hwanes.fetches.started
  generalize reportActivity run true w₁ = w₂ at hbusy hunasked hnumber ⊢
  rw [← hnumber]
  cases relativePath w₂.fetches with
  | error f => exact hbusy
  | ok relative =>
    dsimp only
    unfold getCompletions
    cases completionParams _ w₂ with
    | error f => exact hbusy
    | ok params => exact hbusy.ask hr hk hunasked params

/-- All fetches are given up before one is begun, so the new one is the only one wanted. -/
theorem Ordered.requestCompletion (h : w.Ordered k m spared) :
    (requestCompletion run w).2.Ordered k m spared := by
  obtain ⟨hgiven, hnone⟩ := h.cancelFetches hr hk
  exact hgiven.startFetch hr hk hnone _

theorem Ordered.asksOnce (h : w.Ordered k m spared) (ha : AsksOnce (k.abstention hk) run w w') :
    w'.Ordered k m spared := by
  obtain ⟨w₁, w₂, hbefore, rfl | rfl, hafter⟩ := ha
  · exact (h.leads hk hbefore).leads hk hafter
  · exact ((h.leads hk hbefore).requestCompletion hr hk).leads hk hafter

end Running

/-! ## What an answer brings -/

/-- The answer to a fetch is outdated if completions were asked for again, or if the call is below a
number and the fetch is not spared. -/
def Outdated (m : Nat) (spared : Nat → Prop) (w : World) (a : FetchAnswer) : Prop :=
  (a.call < m ∧ ¬ spared a.task) ∨ ∃ later, w.client.Asked later ∧ a.call < later

/-- What is outdated was given up. -/
theorem InOrder.cancelled_of_outdated (h : w.InOrder m spared) {a : FetchAnswer}
    (ht : w.client.taskOf? a.call = some a.task) (outdated : w.Outdated m spared a) :
    (w.removeFetch a.task).1 = true := by
  refine Fetches.cancelled_of_not_wants (h.tabled _ _ ht) fun hw => ?_
  rcases outdated with ⟨hlt, hspared⟩ | ⟨later, hasked, hlt⟩
  · exact hspared (h.before _ hlt _ ht hw)
  · exact h.bygone later hasked _ hlt _ ht hw

/-- What answers a fetch answers a call that asked for completions. -/
theorem asked_of_fetchAnswer? {b : Frame.Body} {a : FetchAnswer} (ha : w.fetchAnswer? b = some a)
    (h : w.client.FetchesAsk) : w.client.Asked a.call := by
  simp only [fetchAnswer?, Option.bind_eq_bind, Option.bind_eq_some_iff] at ha
  obtain ⟨p, -, ⟨result, error⟩, -, call, hc, task, ht, he⟩ := ha
  obtain rfl := Option.some.inj he
  exact h.asked ((congrArg (Option.bind · Call.task?) hc).trans ht)

/-- Nothing is shown of what has come, and the server is told that all of it is turned down. -/
structure TurnsDown (w w' : World) (v : Verdict) : Prop where
  started : w'.started = w.started
  told : ∀ r, v = .ok (.completions r) → r.completions ≠ [] → w.transport.accepting = true →
    ∃ es, w'.events = w.events ++ es ∧
      .sent (rejectionOf (r.completions.map Completion.uuid)) ∈ es

/-- What turns completions down does so also as part of more, as long as the rest begins no
session. -/
theorem TurnsDown.within {w₀ w₁ : World} {v : Verdict} (h : w.TurnsDown w' v)
    (started : w.started = w₀.started) (accepting : w.transport.accepting = w₀.transport.accepting)
    (before : w₀.events <+: w.events) (started' : w₁.started = w'.started)
    (after : w'.events <+: w₁.events) : w₀.TurnsDown w₁ v := by
  refine ⟨started'.trans (h.started.trans started), fun r hv hne ha => ?_⟩
  obtain ⟨es, he, hm⟩ := h.told r hv hne (accepting.trans ha)
  obtain ⟨es₀, he₀⟩ := before
  obtain ⟨es₁, he₁⟩ := after
  refine ⟨es₀ ++ (es ++ es₁), ?_, by simp [hm]⟩
  rw [← he₁, he, ← he₀, List.append_assoc, List.append_assoc]

section Running

variable (hr : ∀ r, run.Steady r) (hk : k.Abstains)

include hr hk

/-- A fetch that was given up turns down what its call settles with. -/
theorem turnsDown_endFetch (hs : w.Standing k) {task : Nat}
    (hc : (w.removeFetch task).1 = true) (v : Verdict) :
    w.TurnsDown (endFetch run task v w) v := by
  have hsound := hs.sound.reticence hk.toReticent hs.unready
  rcases v with f | v | r
  · have hlead : Leads (k.reticence hk.toReticent) w (fetchFailed run task f w) :=
      leads_fetchFailed (hr _) trivial task f w
    exact ⟨Steps.started (hlead.steps hsound) id, nofun⟩
  · exact ⟨rfl, nofun⟩
  · have hlead : Leads (k.reticence hk.toReticent) w (reportIfIdle run (w.removeFetch task).2) :=
      (leads_removeFetch trivial task w).trans (leads_reportIfIdle (hr _) _)
    have hsteps := hlead.steps hsound
    have hstarted := Steps.started hsteps id
    have haccepting := Steps.accepting hsteps id hk.writes
    obtain ⟨es, he⟩ := Steps.events_prefix hsteps
    rw [endFetch_of_cancelled run hc]
    generalize reportIfIdle run (w.removeFetch task).2 = w₂ at hstarted haccepting he ⊢
    split
    · next hempty =>
      refine ⟨hstarted, fun r' hv hne => absurd ?_ hne⟩
      cases hv
      simpa using hempty
    · refine ⟨(started_post ..).trans hstarted, fun r' hv _ ha => ?_⟩
      cases hv
      obtain ⟨es', -, hpost⟩ := post_adds (rejectionOf (r.completions.map Completion.uuid)) w₂
      rw [haccepting, ha, if_pos rfl] at hpost
      refine ⟨es ++ ([.sent (rejectionOf (r.completions.map Completion.uuid))] ++ es'), ?_, by simp⟩
      rw [← List.append_assoc, he]
      exact congrArg World.events hpost

/-- What the answer to an outdated call brings is turned down. -/
theorem Ordered.turnsDown (h : w.Ordered k m spared) {b : Frame.Body} {a : FetchAnswer}
    (ha : w.fetchAnswer? b = some a) (outdated : w.Outdated m spared a) :
    w.TurnsDown (World.dispatch run w b) a.verdict := by
  rcases dispatch_reads (hr _) (hr _) (h.sounds hk) h.paired b with
    ⟨hnone, -⟩ | ⟨p, task, v, w₁, hread, hasides, hlead⟩
  · simp [fetchAnswer?_eq_none hnone h.paired] at ha
  · obtain ⟨call, hc, hf⟩ := hread.fetches
    obtain rfl := Option.some.inj (ha.symm.trans (hread.fetchAnswer?_eq h.sound.ledger))
    have htask : w.client.taskOf? p.id = some task := by
      rw [Client.taskOf?, hc, Option.bind_some, hf.task?_eq]
    have hgiven : ((w₁.answered p v).removeFetch task).1 = true := by
      obtain ⟨es, he, -⟩ := hasides
      rw [he]
      exact h.cancelled_of_outdated htask outdated
    obtain ⟨hanswered, huntied⟩ := h.answered hk hread.waiting hc hf hasides v
    have hsteps := (leads_answered (k := k.abstention hk) hread.waiting hasides v).steps
      (h.sounds hk)
    have hrest := hlead.steps ((hanswered.endFetch hr hk huntied v).sounds hk)
    exact (turnsDown_endFetch hr hk hanswered.toStanding hgiven v).within
      (Steps.started hsteps id) (Steps.accepting hsteps id hk.writes) (Steps.events_prefix hsteps)
      (Steps.started hrest id) (Steps.events_prefix hrest)

/-- A session begins with a body only if it answers a call that is not outdated. -/
theorem Ordered.current_of_started (h : w.Ordered k m spared) {b : Frame.Body}
    (hs : (World.dispatch run w b).started ≠ w.started) :
    ∃ a, w.fetchAnswer? b = some a ∧ ¬ w.Outdated m spared a := by
  cases ha : w.fetchAnswer? b with
  | some a => exact ⟨a, rfl, fun outdated => hs (h.turnsDown hr hk ha outdated).started⟩
  | none =>
    refine absurd ?_ hs
    rcases dispatch_reads (hr _) (hr _) (h.sounds hk) h.paired b with
      ⟨-, hlead⟩ | ⟨p, task, v, w₁, hread, -, -⟩
    · exact Steps.started (hlead.steps (h.sounds hk)) id
    · simp [hread.fetchAnswer?_eq h.sound.ledger] at ha

end Running

end World

end GhostText
