import GhostText.Proofs.Client.Receiving
import GhostText.Proofs.Run.Runs

/-!
# What becomes of a call that is given up

A call that was given up stays unsettled for good, whatever arrives and whatever the host does from
inside its scripts. There is one exception: the answer of a request of an account is told to the
subscribers before the call settles, and a subscriber may give up the call meanwhile. Such a call is
settled all the same, but only by the operation in which it was given up. Where the transport
refuses what it has answered, a call that was given up may be rejected too.
-/

namespace GhostText

variable {k : Regime} {w w' : World}

/-! ## Calls -/

/-- A call that has not settled has no outcome, and one that was given up has not settled, unless it
is one of an account. -/
structure Call.Kept (c : Call) : Prop where
  blank : c.status = .pending → c.result = none ∧ c.error = none
  givenUp : c.cancelled = true → c.isOfAccount = false → c.status = .pending

theorem forall_updateCall {c : Client} {id : Nat} {f : Call → Call} {P : Call → Prop}
    (h : ∀ call ∈ c.calls, P call) (hf : ∀ call ∈ c.calls, call.id = id → P (f call)) :
    ∀ call ∈ (c.updateCall id f).calls, P call := by
  simp only [Client.updateCall, List.mem_map]
  rintro _ ⟨call, hc, rfl⟩
  split
  · next he => exact hf call hc he
  · exact h call hc

/-- No call that waits was given up. -/
theorem Client.Ledger.cancelled_of_waiting {c : Client} (hl : c.Ledger) {p : PendingCall}
    (hp : p ∈ c.pending) {call : Call} (hc : c.call? p.id = some call) :
    call.cancelled = false := by
  obtain ⟨call', hc', hpend, -⟩ := hl.waiting p hp
  obtain rfl := Option.some.inj (hc.symm.trans hc')
  simp only [Call.isPending, Bool.and_eq_true, Bool.not_eq_true'] at hpend
  exact hpend.2

/-- A call that was given up is not waited for. -/
theorem Client.Ledger.absent_of_cancelled {c : Client} (hl : c.Ledger) {id : Nat} {call : Call}
    (hc : c.call? id = some call) (cancelled : call.cancelled = true) : c.Absent id := by
  refine ⟨hl.lt_nextId hc, fun p hp he => ?_⟩
  simp [hl.cancelled_of_waiting hp (he ▸ hc)] at cancelled

/-- No step settles a call that was given up, where none may be settled from outside. -/
theorem ClientStep.kept {c c' : Client} (h : ClientStep k False c c') (hl : c.Ledger)
    (hk : ∀ call ∈ c.calls, call.Kept) : ∀ call ∈ c'.calls, call.Kept := by
  cases h with
  | aside calls _ _ => rwa [calls]
  | handlers _ => exact hk
  | make _ _ =>
    simp only [Client.addCall, List.mem_append, List.mem_singleton]
    rintro call (hc | rfl)
    · exact hk call hc
    · exact ⟨fun _ => ⟨rfl, rfl⟩, by simp [Call.start]⟩
  | @settle p f waiting settling =>
    refine forall_updateCall hk fun call hc hid => ⟨fun hs => absurd hs (settling.status call), ?_⟩
    intro hcan
    rw [settling.cancelled, hl.cancelled_of_waiting waiting (hid ▸ hl.call?_of_mem hc)] at hcan
    cases hcan
  | take _ _ => exact hk
  | @settleTaken id call f found pending absent taken _ settling =>
    refine forall_updateCall hk fun call' hc hid =>
      ⟨fun hs => absurd hs (settling.status call'), ?_⟩
    intro _ haccount
    obtain rfl := Option.some.inj (found.symm.trans (hid ▸ hl.call?_of_mem hc))
    rw [Call.isOfAccount, settling.method, ← Call.isOfAccount] at haccount
    simp [haccount] at taken
  | await _ _ _ =>
    exact forall_updateCall hk fun call hc _ => ⟨(hk call hc).blank, (hk call hc).givenUp⟩
  | @cancel id call found pending =>
    refine forall_updateCall hk fun call' hc hid => ⟨(hk call' hc).blank, fun _ _ => ?_⟩
    obtain rfl := Option.some.inj (found.symm.trans (hid ▸ hl.call?_of_mem hc))
    simp only [Call.isPending, Bool.and_eq_true, decide_eq_true_eq] at pending
    exact pending.1
  | disconnect => exact hk

/-- A call that waits no more, in a regime in which it may not settle late, does not settle. -/
theorem ClientStep.stays {late : Prop} {c c' : Client} (h : ClientStep k late c c') {id : Nat}
    (ha : c.Absent id) (hid : ¬ k.holds id) {call : Call} (hc : c.call? id = some call) :
    ∃ call', c'.call? id = some call' ∧ call'.status = call.status := by
  cases h with
  | aside calls _ _ => exact ⟨call, by simpa only [Client.call?, calls] using hc, rfl⟩
  | handlers _ => exact ⟨call, hc, rfl⟩
  | make _ _ => exact ⟨call, by rw [Client.call?_addCall, hc]; rfl, rfl⟩
  | settle waiting settling =>
    exact Client.becomes_updateCall (R := fun c c' => c'.status = c.status) (fun _ => rfl)
      settling.id (fun he => absurd he.symm (ha.absent _ waiting)) hc
  | take _ _ => exact ⟨call, hc, rfl⟩
  | settleTaken _ _ _ _ held settling =>
    exact Client.becomes_updateCall (R := fun c c' => c'.status = c.status) (fun _ => rfl)
      settling.id (fun he => absurd (he ▸ held) hid) hc
  | await _ _ _ =>
    exact Client.becomes_updateCall (R := fun c c' => c'.status = c.status) (fun _ => rfl)
      (fun _ => rfl) (fun _ => rfl) hc
  | cancel _ _ =>
    exact Client.becomes_updateCall (R := fun c c' => c'.status = c.status) (fun _ => rfl)
      (fun _ => rfl) (fun _ => rfl) hc
  | disconnect => exact ⟨call, hc, rfl⟩

/-- The regime of a conduct in which no call settles any more that a client does not wait for. -/
def Conduct.sparing (k : Conduct) (c : Client) : Regime :=
  { k.free with holds := fun i => ¬ c.Absent i }

theorem Regime.Sound.sparing {k : Conduct} {w : World} (h : k.free.Sound w) :
    (k.sparing w.client).Sound w :=
  ⟨h.bound, h.ledger, fun _ => Classical.em _, h.answers⟩

/-! ## Callbacks -/

/-- Every callback that was run waited for a call that has settled. -/
def World.Answered (k : Conduct) (w : World) : Prop :=
  ∀ label kind o, .calledBack label kind o ∈ w.events → ∃ id, k.waits id label ∧ w.Settled id

/-- A step calls back only those who wait for a call that has settled. -/
theorem Step.events (h : Step k w w') : ∃ es, w'.events = w.events ++ es ∧
    ∀ label kind o, .calledBack label kind o ∈ es → ∃ id, k.waits id label ∧ w.Settled id := by
  cases h with
  | note aside =>
    refine ⟨_, rfl, fun label kind o hm => ?_⟩
    obtain rfl := List.mem_singleton.1 hm
    simp [Event.isAside] at aside
  | callBack kind o waits settled =>
    refine ⟨_, rfl, fun label kind o hm => ?_⟩
    simp only [List.mem_singleton, Event.calledBack.injEq] at hm
    exact ⟨_, hm.1 ▸ waits, settled⟩
  | send _ _ => exact ⟨_, rfl, by simp⟩
  | session step =>
    obtain ⟨es, he, hq⟩ := step.beside.events
    exact ⟨es, he, fun label kind o hm => absurd (hq _ hm) (by simp [Event.isQuiet])⟩
  | document step =>
    obtain ⟨es, he, hes⟩ := step.informs.events
    exact ⟨es, he, fun label kind o hm => absurd (hes _ hm) (by simp [Event.isAside])⟩
  | _ => exact ⟨[], (List.append_nil _).symm, by simp⟩

/-! ## Rows of steps -/

namespace Steps

/-- On a row of steps no call that was given up settles. -/
theorem kept (h : Steps k w w') (hs : k.Sound w) (ht : w.transport.refusesAnswered = false)
    (hk : ∀ call ∈ w.client.calls, call.Kept) : ∀ call ∈ w'.client.calls, call.Kept := by
  induction h with
  | refl => exact hk
  | tail steps step ih =>
    rcases step.client_eq with heq | hstep
    · exact heq ▸ ih
    · have hlate := (Steps.answers_eq steps).2.trans ht
      simp only [hlate, Bool.false_eq_true] at hstep
      exact hstep.kept (Steps.sound steps hs).ledger ih

/-- A call that is not in the table keeps its status. -/
theorem stays (h : Steps k w w') {id : Nat} (ha : w.client.Absent id) (hid : ¬ k.holds id)
    {call : Call} (hc : w.client.call? id = some call) :
    ∃ call', w'.client.call? id = some call' ∧ call'.status = call.status := by
  induction h with
  | refl => exact ⟨call, hc, rfl⟩
  | tail steps step ih =>
    obtain ⟨call', hc', hstatus⟩ := ih
    rcases step.client_eq with heq | hstep
    · exact ⟨call', heq ▸ hc', hstatus⟩
    · obtain ⟨call'', hc'', he⟩ := hstep.stays (Steps.absent steps ha) hid hc'
      exact ⟨call'', hc'', he.trans hstatus⟩

/-- Whoever is called back on a row of steps waits for a call that has settled. -/
theorem answered (h : Steps k w w') (hs : k.Sound w) (hw : w.Answered k.toConduct) :
    w'.Answered k.toConduct := by
  induction h with
  | refl => exact hw
  | tail steps step ih =>
    obtain ⟨es, he, hes⟩ := step.events
    intro label kind o hm
    rw [he, List.mem_append] at hm
    obtain ⟨id, hwaits, hset⟩ := hm.elim (ih label kind o) (hes label kind o)
    exact ⟨id, hwaits, Steps.settled (.single step) (Steps.sound steps hs) hset⟩

end Steps

/-! ## Runs -/

namespace World

end World

end GhostText
