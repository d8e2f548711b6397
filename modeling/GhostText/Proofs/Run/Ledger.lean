import GhostText.Proofs.Run.Step
import Mathlib.Data.List.Nodup

/-!
# The table of calls

The n-th call has the identifier n, and what waits in the table are pending calls, in the order in
which they were made. Every step of the client keeps this.
-/

namespace GhostText

namespace Client

variable {c : Client}

/-- A call is found under its own number. -/
theorem call?_eq_some_id {id : Nat} {call : Call} (h : c.call? id = some call) : call.id = id := by
  simpa using List.find?_some h

theorem mem_of_call? {id : Nat} {call : Call} (h : c.call? id = some call) : call ∈ c.calls :=
  List.mem_of_find?_eq_some h

/-- A change of one call that leaves it its identifier. -/
theorem call?_updateCall {f : Call → Call} (hf : ∀ call, (f call).id = call.id) (id i : Nat) :
    (c.updateCall id f).call? i = if i = id then (c.call? i).map f else c.call? i := by
  simp only [call?, updateCall, List.find?_map]
  have hp : (fun k : Call => decide (k.id = i)) ∘ (fun k => if k.id = id then f k else k) =
      fun k => decide (k.id = i) := by
    funext k
    simp only [Function.comp_apply]
    split <;> simp [hf]
  rw [hp]
  cases hc : c.calls.find? fun k => decide (k.id = i) with
  | none => simp
  | some call =>
    have hid : call.id = i := by simpa using List.find?_some hc
    split <;> simp_all

theorem methods_updateCall {f : Call → Call} (hm : ∀ call, (f call).method = call.method) (id : Nat)
    (c : Client) : (c.updateCall id f).calls.map Call.method = c.calls.map Call.method := by
  simp only [updateCall, List.map_map]
  refine List.map_congr_left fun call _ => ?_
  simp only [Function.comp_apply]
  split <;> simp [hm]

@[simp] theorem call?_dropPending (id i : Nat) : (c.dropPending id).call? i = c.call? i := rfl

/-- A new call is found under its number, and the others are found as before. -/
theorem call?_addCall (call : Call) (t : Treatment) (i : Nat) : (c.addCall call t).call? i =
    (c.call? i).or (if call.id = i then some call else none) := by
  simp [call?, addCall, List.find?_append, List.find?_cons]
  split <;> simp_all

theorem map_id_updateCall {f : Call → Call} (hf : ∀ call, (f call).id = call.id) (id : Nat) :
    (c.updateCall id f).calls.map Call.id = c.calls.map Call.id := by
  simp only [updateCall, List.map_map]
  refine List.map_congr_left fun call _ => ?_
  simp only [Function.comp_apply]
  split <;> simp [hf]

theorem length_updateCall (f : Call → Call) (id : Nat) :
    (c.updateCall id f).calls.length = c.calls.length := by
  simp [updateCall]

@[simp] theorem nextId_updateCall (f : Call → Call) (id : Nat) :
    (c.updateCall id f).nextId = c.nextId := by
  simp [nextId, length_updateCall]

@[simp] theorem nextId_dropPending (id : Nat) : (c.dropPending id).nextId = c.nextId := rfl

/-- The n-th call has the identifier n, and those that wait are pending and in order. -/
structure Ledger (c : Client) : Prop where
  ids : c.calls.map Call.id = List.range' 1 c.calls.length
  waiting : ∀ p ∈ c.pending, ∃ call, c.call? p.id = some call ∧ call.isPending = true ∧
    (p.treatment = .account → call.isOfAccount = true)
  ordered : c.pendingIds.Pairwise (· < ·)

/-- Calls are numbered from one up to the next number. -/
theorem Ledger.id_le (h : c.Ledger) {call : Call} (hc : call ∈ c.calls) :
    1 ≤ call.id ∧ call.id < c.nextId := by
  have hm := List.mem_map_of_mem (f := Call.id) hc
  rw [h.ids, List.mem_range'_1] at hm
  simp only [nextId]
  omega

/-- No two calls have one identifier. -/
theorem Ledger.call?_of_mem (h : c.Ledger) {call : Call} (hc : call ∈ c.calls) :
    c.call? call.id = some call := by
  have hn : (c.calls.map Call.id).Nodup := h.ids ▸ List.nodup_range'
  have hinj := List.inj_on_of_nodup_map hn
  cases hf : c.call? call.id with
  | none => simp [call?] at hf; exact absurd rfl (hf call hc)
  | some found =>
    rw [hinj (mem_of_call? hf) hc (call?_eq_some_id hf)]

/-- A call that is found was made. -/
theorem Ledger.lt_nextId (h : c.Ledger) {id : Nat} {call : Call} (hc : c.call? id = some call) :
    id < c.nextId := by
  have hlt := (h.id_le (mem_of_call? hc)).2
  rwa [call?_eq_some_id hc] at hlt

theorem Ledger.call?_nextId (h : c.Ledger) : c.call? c.nextId = none := by
  cases hf : c.call? c.nextId with
  | none => rfl
  | some call => exact absurd (h.lt_nextId hf) (Nat.lt_irrefl _)

theorem Ledger.id_lt_of_pending (h : c.Ledger) {p : PendingCall} (hp : p ∈ c.pending) :
    p.id < c.nextId := by
  obtain ⟨call, hc, -⟩ := h.waiting p hp
  exact h.lt_nextId hc

/-- The call that is made last is found. -/
theorem Ledger.call?_addCall_self (h : c.Ledger) {call : Call} (hid : call.id = c.nextId)
    (t : Treatment) : (c.addCall call t).call? c.nextId = some call := by
  rw [call?_addCall, h.call?_nextId, if_pos hid, Option.none_or]

/-- What waits is found by its identifier. -/
theorem Ledger.find?_pending (h : c.Ledger) {p : PendingCall} (hp : p ∈ c.pending) :
    (c.pending.find? fun q => q.id = p.id) = some p := by
  cases hq : c.pending.find? fun q => q.id = p.id with
  | none => simpa using List.find?_eq_none.1 hq p hp
  | some q =>
    have hnodup : c.pendingIds.Nodup := h.ordered.imp fun h => Nat.ne_of_lt h
    have hinj := List.inj_on_of_nodup_map hnodup
    rw [hinj (List.mem_of_find?_eq_some hq) hp (by simpa using List.find?_some hq)]

/-- So a response finds it. -/
theorem Ledger.pendingFor?_eq (h : c.Ledger) {p : PendingCall} (hp : p ∈ c.pending) :
    c.pendingFor? (.int p.id) = some p := by
  simpa only [pendingFor?, Int.ofNat_inj] using h.find?_pending hp

/-- A change of one call that does not wait. -/
theorem Ledger.updateCall (h : c.Ledger) {f : Call → Call} {id : Nat}
    (hf : ∀ call, (f call).id = call.id) (hid : ∀ p ∈ c.pending, p.id ≠ id) :
    (c.updateCall id f).Ledger := by
  refine ⟨?_, fun p hp => ?_, h.ordered⟩
  · rw [map_id_updateCall hf, length_updateCall, h.ids]
  · rw [call?_updateCall hf, if_neg (hid p hp)]
    exact h.waiting p hp

/-- A change of one call after which it is pending if it was. -/
theorem Ledger.updateWaiting (h : c.Ledger) {f : Call → Call} (id : Nat)
    (hf : ∀ call, (f call).id = call.id) (hp : ∀ call, (f call).isPending = call.isPending)
    (hm : ∀ call, (f call).method = call.method) : (c.updateCall id f).Ledger := by
  refine ⟨?_, fun p hw => ?_, h.ordered⟩
  · rw [map_id_updateCall hf, length_updateCall, h.ids]
  · obtain ⟨call, hc, hpend, ha⟩ := h.waiting p hw
    rw [call?_updateCall hf, hc]
    by_cases he : p.id = id
    · exact ⟨f call, by simp [he], by rw [hp, hpend], fun ht => by
        simpa only [Call.isOfAccount, hm] using ha ht⟩
    · exact ⟨call, by simp [he], hpend, ha⟩

theorem Ledger.dropPending (h : c.Ledger) (id : Nat) : (c.dropPending id).Ledger := by
  refine ⟨h.ids, fun p hp => h.waiting p (List.mem_filter.1 hp).1, ?_⟩
  exact h.ordered.sublist (List.Sublist.map _ List.filter_sublist)

/-- A call that is made gets the next identifier. -/
theorem Ledger.addCall (h : c.Ledger) (method : String) (kind : CallKind)
    (onResult onError : List Continuation) (treatment : Treatment)
    (account : treatment = .account → method ∈ accountMethods) :
    (c.addCall (.start c.nextId method kind onResult onError) treatment).Ledger := by
  refine ⟨?_, fun p hp => ?_, ?_⟩
  · simp [Client.addCall, h.ids, List.range'_concat, Call.start, Client.nextId, Nat.add_comm]
  · simp only [Client.addCall, List.mem_append, List.mem_singleton] at hp
    rw [Client.call?_addCall]
    rcases hp with hp | rfl
    · obtain ⟨call, hc, hw⟩ := h.waiting p hp
      exact ⟨call, by rw [hc]; rfl, hw⟩
    · refine ⟨.start c.nextId method kind onResult onError, ?_, rfl, fun ht => ?_⟩
      · simp [Call.start, h.call?_nextId]
      · simpa [Call.isOfAccount, Call.start] using account ht
  · simp only [Client.pendingIds, Client.addCall, List.map_append, List.pairwise_append]
    refine ⟨h.ordered, List.pairwise_singleton _ _, fun i hi j hj => ?_⟩
    obtain ⟨p, hp, rfl⟩ := List.mem_map.1 hi
    simp only [List.map_cons, List.map_nil, List.mem_singleton] at hj
    exact hj ▸ h.id_lt_of_pending hp

theorem ne_of_mem_dropPending {id : Nat} {p : PendingCall} (hp : p ∈ (c.dropPending id).pending) :
    p.id ≠ id := by
  simpa using (List.mem_filter.1 hp).2

/-- A change of one call that leaves the table. -/
theorem Ledger.endCall (h : c.Ledger) {f : Call → Call} (hf : ∀ call, (f call).id = call.id)
    (id : Nat) : ((c.dropPending id).updateCall id f).Ledger :=
  (h.dropPending id).updateCall hf fun _ hp => ne_of_mem_dropPending hp

/-- The end of a connection empties the table. -/
theorem Ledger.disconnect (h : c.Ledger) : c.disconnect.Ledger :=
  ⟨h.ids, fun _ hp => by simp [Client.disconnect] at hp, List.Pairwise.nil⟩

end Client

namespace Settling

variable {f : Call → Call}

@[simp] theorem id (h : Settling f) (call : Call) : (f call).id = call.id := by
  cases h <;> rfl

@[simp] theorem method (h : Settling f) (call : Call) : (f call).method = call.method := by
  cases h <;> rfl

@[simp] theorem cancelled (h : Settling f) (call : Call) :
    (f call).cancelled = call.cancelled := by
  cases h <;> rfl

/-- A call that settles or is given up waits no more. -/
theorem status (h : Settling f) (call : Call) : (f call).status ≠ .pending := by
  cases h <;> simp [Call.fulfil, Call.reject]

@[simp] theorem onResult (h : Settling f) (call : Call) : (f call).onResult = [] := by
  cases h <;> rfl

@[simp] theorem onError (h : Settling f) (call : Call) : (f call).onError = [] := by
  cases h <;> rfl

end Settling

/-- Every step of the client keeps the table in order. -/
theorem ClientStep.ledger {k : Regime} {late : Prop} {c c' : Client} (h : ClientStep k late c c')
    (hl : c.Ledger) : c'.Ledger := by
  cases h with
  | aside calls pending _ =>
    refine ⟨by rw [calls, hl.ids], fun p hp => ?_, by
      simpa only [Client.pendingIds, pending] using hl.ordered⟩
    simpa only [Client.call?, calls] using hl.waiting p (pending ▸ hp)
  | handlers _ => exact ⟨hl.ids, hl.waiting, hl.ordered⟩
  | @make method kind onResult onError treatment admits =>
    exact hl.addCall method kind onResult onError treatment admits.account
  | settle waiting settling => exact hl.endCall settling.id _
  | take id _ => exact hl.dropPending id
  | settleTaken _ _ absent _ _ settling => exact hl.updateCall settling.id absent
  | await onResult onError _ => exact hl.updateWaiting _ (fun _ => rfl) (fun _ => rfl) fun _ => rfl
  | cancel found pending => exact hl.endCall (f := Call.cancel) (fun _ => rfl) _
  | disconnect => exact hl.disconnect

end GhostText
