import GhostText.Proofs.Client.Settling

/-!
# Calls that end fetches

A call is made for one fetch or for none. If it is made for one, the end of the fetch is what waits
for it first, whatever it settles with, and all that comes to wait for it later comes behind that.
-/

namespace GhostText

variable {k : Regime}

/-- The end of a fetch, for whatever its call settles with. -/
def Verdict.ending (task : Nat) (sink : CompletionSink) : Verdict → Continuation
  | .ok _ => .fetched task sink
  | .error _ => .fetchFailed task

theorem Verdict.mem_of_waiting {v : Verdict} {c : Call} {q : Continuation} (h : q ∈ v.waiting c) :
    q ∈ c.onResult ++ c.onError := by
  cases v with
  | ok r => exact List.mem_append_left _ h
  | error f => exact List.mem_append_right _ h

namespace Call

variable {c : Call} {task task' : Nat} {sink sink' : CompletionSink}

/-- Nothing that waits for the call ends a fetch. -/
def FetchesNothing (c : Call) : Prop := ∀ q ∈ c.onResult ++ c.onError, q.isOfFetch = false

/-- The call ends a fetch before anything else. -/
structure Ends (c : Call) (task : Nat) (sink : CompletionSink) : Prop where
  onResult : ∃ qs, c.onResult = .fetched task sink :: qs ∧ ∀ q ∈ qs, q.isOfFetch = false
  onError : ∃ qs, c.onError = .fetchFailed task :: qs ∧ ∀ q ∈ qs, q.isOfFetch = false

theorem Ends.mem (h : c.Ends task sink) : .fetched task sink ∈ c.onResult ++ c.onError := by
  obtain ⟨qs, hres, -⟩ := h.onResult
  simp [hres]

/-- A call cannot be for a fetch and for none. -/
theorem Ends.not_nothing (h : c.Ends task sink) : ¬ c.FetchesNothing := fun hn => by
  simpa [Continuation.isOfFetch] using hn _ h.mem

/-- What ends a fetch with the result of a call is the fetch the call was made for. -/
theorem Ends.eq_of_mem (h : c.Ends task sink) (hm : .fetched task' sink' ∈ c.onResult) :
    task' = task ∧ sink' = sink := by
  obtain ⟨qs, hres, plain⟩ := h.onResult
  rcases List.mem_cons.1 (hres ▸ hm) with he | hm
  · simpa using he
  · simpa [Continuation.isOfFetch] using plain _ hm

/-- The others that wait for the call end no fetch. -/
theorem Ends.waiting (h : c.Ends task sink) (v : Verdict) : ∃ others,
    v.waiting c = v.ending task sink :: others ∧ ∀ q ∈ others, q.isOfFetch = false := by
  cases v with
  | ok r => exact h.onResult
  | error f => exact h.onError

section Await

variable {onResult onError : List Continuation}
  (plain : ∀ q ∈ onResult ++ onError, q.isOfFetch = false)

include plain

/-- What comes to wait for a call later stands behind the end of its fetch. -/
theorem Ends.await (h : c.Ends task sink) : (Call.await onResult onError c).Ends task sink := by
  obtain ⟨plain₁, plain₂⟩ := List.forall_mem_append.1 plain
  obtain ⟨qs, hres, hq⟩ := h.onResult
  obtain ⟨es, herr, he⟩ := h.onError
  exact ⟨⟨qs ++ onResult, by simp [Call.await, hres], List.forall_mem_append.2 ⟨hq, plain₁⟩⟩,
    ⟨es ++ onError, by simp [Call.await, herr], List.forall_mem_append.2 ⟨he, plain₂⟩⟩⟩

theorem FetchesNothing.await (h : c.FetchesNothing) :
    (Call.await onResult onError c).FetchesNothing := by
  obtain ⟨plain₁, plain₂⟩ := List.forall_mem_append.1 plain
  obtain ⟨hres, herr⟩ := List.forall_mem_append.1 h
  exact List.forall_mem_append.2
    ⟨List.forall_mem_append.2 ⟨hres, plain₁⟩, List.forall_mem_append.2 ⟨herr, plain₂⟩⟩

end Await

end Call

/-- A call that settles has nobody waiting for it. -/
theorem Settling.fetchesNothing {f : Call → Call} (h : Settling f) (c : Call) :
    (f c).FetchesNothing := by
  simp [Call.FetchesNothing, h.onResult, h.onError]

/-! ## The table of calls -/

namespace Client

/-- Every call ends no fetch, or one whose completions go where they may go, and the result of such
a call is read accordingly. -/
structure Paired (S : CompletionSink → Prop) (c : Client) : Prop where
  calls : ∀ id call, c.call? id = some call →
    call.FetchesNothing ∨ ∃ task sink, S sink ∧ call.Ends task sink
  waiting : ∀ p ∈ c.pending, ∀ call task sink, c.call? p.id = some call → call.Ends task sink →
    p.treatment = .completions

variable {S : CompletionSink → Prop} {c c' : Client}

/-- Calls that waited leave the table. -/
theorem Paired.drop (h : c.Paired S) (calls : c'.calls = c.calls)
    (pending : ∀ p ∈ c'.pending, p ∈ c.pending) : c'.Paired S := by
  have hcall : ∀ id, c'.call? id = c.call? id := fun id => by simp only [call?, calls]
  exact ⟨fun id call hc => h.calls id call ((hcall id).symm.trans hc), fun p hp call task sink hc =>
    h.waiting p (pending p hp) call task sink ((hcall p.id).symm.trans hc)⟩

/-- A change of one call keeps the table if it leaves the call for its fetch or for none. -/
theorem Paired.updateCall (h : c.Paired S) {id : Nat} {f : Call → Call}
    (hid : ∀ call, (f call).id = call.id)
    (hnothing : ∀ call, call.FetchesNothing → (f call).FetchesNothing)
    (hends : ∀ call task sink, call.Ends task sink →
      (f call).FetchesNothing ∨ (f call).Ends task sink) : (c.updateCall id f).Paired S := by
  refine ⟨fun i call hc => ?_, fun p hp call task sink hc hf => ?_⟩
  · rw [call?_updateCall hid] at hc
    split at hc
    · obtain ⟨call₀, hc₀, rfl⟩ := Option.map_eq_some_iff.1 hc
      rcases h.calls i call₀ hc₀ with hn | ⟨task, sink, hs, hf⟩
      · exact Or.inl (hnothing call₀ hn)
      · exact (hends call₀ task sink hf).imp_right fun hf => ⟨task, sink, hs, hf⟩
    · exact h.calls i call hc
  · rw [call?_updateCall hid] at hc
    split at hc
    · obtain ⟨call₀, hc₀, rfl⟩ := Option.map_eq_some_iff.1 hc
      rcases h.calls p.id call₀ hc₀ with hn | ⟨task₀, sink₀, -, hf₀⟩
      · exact absurd (hnothing call₀ hn) hf.not_nothing
      · exact h.waiting p hp call₀ task₀ sink₀ hc₀ hf₀
    · exact h.waiting p hp call task sink hc hf

/-- A call ends, and nothing waits for it any more. -/
theorem Paired.endCall (h : c.Paired S) {id : Nat} {f : Call → Call}
    (hid : ∀ call, (f call).id = call.id) (hf : ∀ call, (f call).FetchesNothing) :
    (c.updateCall id f).Paired S :=
  h.updateCall hid (fun call _ => hf call) fun call _ _ _ => Or.inl (hf call)

/-- A new call is for no fetch, or for one and treated as completions. -/
theorem Paired.addCall (h : c.Paired S) (hl : c.Ledger) {call : Call} {t : Treatment}
    (hid : call.id = c.nextId) (hcall : call.FetchesNothing ∨
      t = .completions ∧ ∃ task sink, S sink ∧ call.Ends task sink) :
    (c.addCall call t).Paired S := by
  have hfound : ∀ i, i ≠ c.nextId → (c.addCall call t).call? i = c.call? i := by
    intro i hi
    rw [call?_addCall, if_neg (by rw [hid]; exact hi.symm), Option.or_none]
  have hself : (c.addCall call t).call? c.nextId = some call := hl.call?_addCall_self hid t
  refine ⟨fun i call' hc => ?_, fun p hp call' task sink hc hf => ?_⟩
  · by_cases hi : i = c.nextId
    · obtain rfl := Option.some.inj (hself.symm.trans (hi ▸ hc))
      exact hcall.imp_right And.right
    · exact h.calls i call' ((hfound i hi).symm.trans hc)
  · rcases List.mem_append.1 hp with hp | hp
    · have hi : p.id ≠ c.nextId := Nat.ne_of_lt (hl.id_lt_of_pending hp)
      exact h.waiting p hp call' task sink ((hfound p.id hi).symm.trans hc) hf
    · obtain rfl := List.mem_singleton.1 hp
      obtain rfl := Option.some.inj (hself.symm.trans (hid ▸ hc))
      exact (hcall.resolve_left hf.not_nothing).1

end Client

variable {S : CompletionSink → Prop}

/-- Every step of the client keeps the calls paired with what they end. -/
theorem ClientStep.paired {late : Prop} {c c' : Client} (h : ClientStep k late c c')
    (hl : c.Ledger)
    (sinks : ∀ sink, (sink = .controller ∨ ∃ position cb, k.does (.task (.start position cb))) →
      S sink) (hp : c.Paired S) : c'.Paired S := by
  have hdrop : ∀ id, ∀ p ∈ (c.dropPending id).pending, p ∈ c.pending := fun id p hp =>
    (List.mem_filter.1 hp).1
  cases h with
  | aside calls pending _ => exact hp.drop calls fun p hp => pending ▸ hp
  | handlers _ => exact hp.drop rfl fun _ hp => hp
  | make kind admits =>
    refine hp.addCall hl rfl ?_
    rcases admits.fetch with plain | ⟨task, sink, -, -, ht, hres, herr, hsink⟩
    · exact Or.inl plain
    · exact Or.inr ⟨ht, task, sink, sinks sink hsink, ⟨[], hres, List.forall_mem_nil _⟩,
        ⟨[], herr, List.forall_mem_nil _⟩⟩
  | @settle p f _ settling =>
    have hdropped : (c.dropPending p.id).Paired S := hp.drop rfl (hdrop p.id)
    exact hdropped.endCall settling.id settling.fetchesNothing
  | take id _ => exact hp.drop rfl (hdrop id)
  | settleTaken _ _ _ _ _ settling => exact hp.endCall settling.id settling.fetchesNothing
  | await onResult onError _ plain =>
    exact hp.updateCall (fun _ => rfl) (fun _ hn => hn.await plain) fun _ _ _ hf =>
      Or.inr (hf.await plain)
  | @cancel id call found pending =>
    refine Client.Paired.drop (hp.endCall (f := Call.cancel) (fun _ => rfl) fun _ => ?_)
      rfl fun p hp => (List.mem_filter.1 hp).1
    simp [Call.FetchesNothing, Call.cancel]
  | disconnect => exact hp.drop rfl (List.forall_mem_nil _)

/-- Along a row of steps every call is for one fetch or for none. -/
theorem Steps.paired {w w' : World} (h : Steps k w w') (hs : k.Sound w)
    (sinks : ∀ sink, (sink = .controller ∨ ∃ position cb, k.does (.task (.start position cb))) →
      S sink) (hw : w.client.Paired S) : w'.client.Paired S := by
  induction h with
  | refl => exact hw
  | tail steps step ih =>
    rcases step.client_eq with heq | hstep
    · exact heq ▸ ih
    · exact hstep.paired (Steps.sound steps hs).ledger sinks ih

end GhostText
