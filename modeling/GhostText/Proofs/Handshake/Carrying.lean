import GhostText.Proofs.Handshake.Greeting

/-!
# The calls of a handshake

Each change that the program makes to its table of calls, and what it does to the call that goes on
with a handshake: a call that settles or is given up lets go of it, a request of the next stage
takes it on, and every other change leaves it where it is.
-/

namespace GhostText

variable {k : Conduct} {g : Greeting} {p p' : Greeting.Progress}

/-! ## Continuations -/

namespace Conduct

variable {id : Nat} {core qs rs : List Continuation}

theorem around_nil : k.Around id [] [] := ⟨[], [], rfl, by simp⟩

theorem around_of_plain (h : ∀ q ∈ qs, k.Plain id q) : k.Around id [] qs :=
  ⟨qs, [], by simp, by simpa using h⟩

theorem Around.plain (h : k.Around id [] qs) : ∀ q ∈ qs, k.Plain id q := by
  obtain ⟨before, after, rfl, hp⟩ := h
  simpa using hp

theorem around_core (core : List Continuation) : k.Around id core core := ⟨[], [], by simp, by simp⟩

/-- More that is no business of a handshake may come to wait behind. -/
theorem Around.append (h : k.Around id core qs) (hr : ∀ q ∈ rs, k.Plain id q) :
    k.Around id core (qs ++ rs) := by
  obtain ⟨before, after, rfl, hp⟩ := h
  refine ⟨before, after ++ rs, by simp only [List.append_assoc], ?_⟩
  rw [← List.append_assoc]
  exact List.forall_mem_append.2 ⟨hp, hr⟩

/-- What comes after nothing but plain continuations. -/
theorem Around.behind (h : k.Around id [] qs) (core : List Continuation) :
    k.Around id core (qs ++ core) :=
  ⟨qs, [], by simp, by simpa using h.plain⟩

end Conduct

namespace Verdict

@[simp] theorem waiting_start (v : Verdict) (id : Nat) (method : String) (kind : CallKind)
    (onResult onError : List Continuation) :
    v.waiting (.start id method kind onResult onError) = v.choose onResult onError := by
  cases v <;> rfl

@[simp] theorem waiting_await (v : Verdict) (onResult onError : List Continuation) (c : Call) :
    v.waiting (c.await onResult onError) = v.waiting c ++ v.choose onResult onError := by
  cases v <;> rfl

/-- What is chosen for a verdict is among what waits. -/
theorem mem_choose {onResult onError : List Continuation} {v : Verdict} {q : Continuation}
    (h : q ∈ v.choose onResult onError) : q ∈ onResult ++ onError := by
  cases v with
  | ok r => exact List.mem_append_left _ h
  | error f => exact List.mem_append_right _ h

theorem waiting_of_empty {c : Call} (h : c.onResult = []) (h' : c.onError = []) (v : Verdict) :
    v.waiting c = [] := by
  cases v
  · exact h'
  · exact h

end Verdict

namespace Greeting.Progress

@[simp] theorem core_settled_self (v : Verdict) (id : Nat) (p : Progress) :
    (p.settled id).core g v id = [] := by
  cases p with
  | waiting s i =>
    by_cases h : id = i <;> simp [settled, core, h]
  | halted handed heard => rfl

/-- What waits at another call for a handshake still waits. -/
theorem core_settled_of_ne {i id : Nat} (h : i ≠ id) (v : Verdict) (p : Progress) :
    (p.settled id).core g v i = p.core g v i := by
  cases p with
  | waiting s j =>
    by_cases hj : id = j
    · have hi : i ≠ j := fun he => h (he.trans hj.symm)
      simp [settled, core, hj, hi]
    · simp [settled, hj]
  | halted handed heard => rfl

/-- A handshake that waits after a call has settled waits for another call. -/
theorem settled_eq_waiting {id i : Nat} {s : Stage} (h : p.settled id = .waiting s i) :
    p = .waiting s i ∧ i ≠ id := by
  cases p with
  | waiting t j =>
    by_cases hj : id = j
    · simp [settled, hj] at h
    · simp only [settled, hj, if_false, waiting.injEq] at h
      obtain ⟨rfl, rfl⟩ := h
      exact ⟨rfl, Ne.symm hj⟩
  | halted handed heard => cases h

end Greeting.Progress

namespace Client

variable {c c' : Client} {id : Nat} {call : Call}

theorem mem_dropPending {q : PendingCall} (h : q ∈ c.pending) (hid : q.id ≠ id) :
    q ∈ (c.dropPending id).pending :=
  List.mem_filter.2 ⟨h, by simpa using hid⟩

namespace Carries

/-- Nothing of the calls changes. -/
theorem aside (h : c.Carries k g p) (calls : c'.calls = c.calls) (pending : c'.pending = c.pending)
    (handlers : k.Handles c'.handlers) : c'.Carries k g p := by
  have hcall : ∀ i, c'.call? i = c.call? i := fun i => by simp only [call?, calls]
  refine ⟨handlers, ⟨?_, ?_, ?_⟩, ?_, ?_, ?_, ?_, ?_⟩
  · rw [calls]
    exact h.ledger.ids
  · simpa only [hcall, pending] using h.ledger.waiting
  · simpa only [pendingIds, pending] using h.ledger.ordered
  · simpa only [hcall, pending] using h.asIs
  · simpa only [calls] using h.settled
  · simpa only [calls, pending] using h.tabled
  · simpa only [calls] using h.around
  · simpa only [hcall] using h.waits

/-- Where no call goes on with the handshake, the calls do not show how far it has got. -/
theorem halted {handed handed' : List String}
    {heard heard' : List (String × CallbackKind × Outcome)}
    (h : c.Carries k g (.halted handed heard)) : c.Carries k g (.halted handed' heard') :=
  ⟨h.handlers, h.ledger, h.asIs, h.settled, h.tabled, h.around, nofun⟩

/-- What waits is forgotten. -/
theorem disconnect (h : c.Carries k g p) (hk : ¬ k.Patient) : c.disconnect.Carries k g p :=
  ⟨h.handlers, h.ledger.disconnect, by simp [Client.disconnect], h.settled, fun hp => absurd hp hk,
    h.around, h.waits⟩

/-- What waits no more, since it has settled or is no request of the handshake, leaves the table. -/
theorem dropPending (h : c.Carries k g p)
    (hid : ∀ call, c.call? id = some call → call.isGreeting → call.status ≠ .pending) :
    (c.dropPending id).Carries k g p := by
  refine ⟨h.handlers, h.ledger.dropPending id, fun q hq => h.asIs q (List.mem_filter.1 hq).1,
    h.settled, fun hk call hc hg hp => ?_, h.around, h.waits⟩
  have hne : call.id ≠ id := by
    rintro rfl
    exact hid call (h.ledger.call?_of_mem hc) hg hp
  exact mem_dropPending (h.tabled hk call hc hg hp) hne

/-- A call ends, and the handshake goes on with it no more. -/
theorem endCall (h : c.Carries k g p) (id : Nat) {f : Call → Call}
    (hid : ∀ call, (f call).id = call.id)
    (empty : ∀ call, (f call).onResult = [] ∧ (f call).onError = [])
    (settled : ∀ call ∈ c.calls, (f call).status ≠ .pending → ∃ v, (f call).verdict? = some v)
    (ended : k.Patient → ∀ call, (f call).status ≠ .pending) :
    ((c.dropPending id).updateCall id f).Carries k g (p.settled id) := by
  have hcall : ∀ i, i ≠ id → ((c.dropPending id).updateCall id f).call? i = c.call? i := by
    intro i hi
    rw [call?_updateCall hid, if_neg hi, call?_dropPending]
  refine ⟨h.handlers, h.ledger.endCall hid id, fun q hq call hc => ?_, fun call hc hs => ?_,
    fun hk call hc hg hp => ?_, fun call hc v => ?_, fun s i he => ?_⟩
  · rw [hcall q.id (ne_of_mem_dropPending hq)] at hc
    exact h.asIs q (List.mem_filter.1 hq).1 call hc
  · rcases mem_updateCall hc with ⟨old, hold, -, rfl⟩ | ⟨hold, -⟩
    · exact settled old hold hs
    · exact h.settled call hold hs
  · rcases mem_updateCall hc with ⟨old, -, -, rfl⟩ | ⟨hold, hne⟩
    · exact absurd hp (ended hk old)
    · exact mem_dropPending (h.tabled hk call hold hg hp) hne
  · rcases mem_updateCall hc with ⟨old, -, he, rfl⟩ | ⟨hold, hne⟩
    · obtain ⟨hr, herr⟩ := empty old
      rw [hid, he, Greeting.Progress.core_settled_self, Verdict.waiting_of_empty hr herr]
      exact Conduct.around_nil
    · rw [Greeting.Progress.core_settled_of_ne hne]
      exact h.around call hold v
  · obtain ⟨rfl, hne⟩ := Greeting.Progress.settled_eq_waiting he
    rw [hcall i hne]
    exact h.waits s i rfl

/-- A call that settles lets go of a handshake, and any other call leaves it. -/
theorem settle (h : c.Carries k g p) (id : Nat) (v : Verdict) :
    ((c.dropPending id).updateCall id (Call.settle v)).Carries k g (p.settled id) :=
  h.endCall id v.settling.id (fun call => ⟨v.settling.onResult call, v.settling.onError call⟩)
    (fun call _ _ => ⟨v, Call.verdict?_settle v call⟩) fun _ => v.settling.status

/-- A call is given up. -/
theorem cancel (h : c.Carries k g p) (id : Nat) (hk : ¬ k.Patient) :
    ((c.updateCall id Call.cancel).dropPending id).Carries k g (p.settled id) :=
  h.endCall id (f := Call.cancel) (fun _ => rfl) (fun _ => ⟨rfl, rfl⟩) h.settled
    fun hp => absurd hp hk

/-- A call is made. -/
theorem addCall (h : c.Carries k g p) {method : String} (kind : CallKind)
    {onResult onError : List Continuation} {t : Treatment}
    (account : t = .account → method ∈ accountMethods)
    (asIs : Handshake.isGreeting method → t = .asIs)
    (new : ∀ v : Verdict, k.Around c.nextId (p'.core g v c.nextId)
      (v.waiting (.start c.nextId method kind onResult onError)))
    (old : ∀ (v : Verdict) i, i < c.nextId → p'.core g v i = p.core g v i)
    (waits : ∀ s i, p' = .waiting s i → p = .waiting s i ∨ i = c.nextId ∧ s.method = method) :
    (c.addCall (.start c.nextId method kind onResult onError) t).Carries k g p' := by
  have hfound : ∀ {i call}, c.call? i = some call →
      (c.addCall (.start c.nextId method kind onResult onError) t).call? i = some call := by
    intro i call hc
    rw [call?_addCall, hc]
    rfl
  have hself : (c.addCall (.start c.nextId method kind onResult onError) t).call? c.nextId =
      some (.start c.nextId method kind onResult onError) := h.ledger.call?_addCall_self rfl t
  refine ⟨h.handlers, h.ledger.addCall method kind onResult onError t account,
    fun q hq call hc hg => ?_, fun call hc hs => ?_, fun hk call hc hg hp => ?_,
    fun call hc v => ?_, fun s i he => ?_⟩
  · rcases List.mem_append.1 hq with hq | hq
    · obtain ⟨call', hc', -⟩ := h.ledger.waiting q hq
      obtain rfl := Option.some.inj ((hfound hc').symm.trans hc)
      exact h.asIs q hq _ hc' hg
    · obtain rfl := List.mem_singleton.1 hq
      obtain rfl := Option.some.inj (hself.symm.trans hc)
      exact asIs hg
  · rcases List.mem_append.1 hc with hc | hc
    · exact h.settled call hc hs
    · obtain rfl := List.mem_singleton.1 hc
      exact absurd rfl hs
  · refine List.mem_append.2 ?_
    rcases List.mem_append.1 hc with hc | hc
    · exact .inl (h.tabled hk call hc hg hp)
    · obtain rfl := List.mem_singleton.1 hc
      exact .inr (by simp [Call.start, asIs hg])
  · rcases List.mem_append.1 hc with hc | hc
    · rw [old v call.id (h.ledger.id_le hc).2]
      exact h.around call hc v
    · obtain rfl := List.mem_singleton.1 hc
      exact new v
  · rcases waits s i he with hp | ⟨rfl, hm⟩
    · obtain ⟨call, hc, hw⟩ := h.waits s i hp
      exact ⟨call, hfound hc, hw⟩
    · exact ⟨_, hself, hm.symm, rfl⟩

/-- A call has the next identifier, so it is not the one that goes on with the handshake. -/
theorem core_nextId (h : c.Carries k g p) (v : Verdict) : p.core g v c.nextId = [] := by
  cases p with
  | waiting s i =>
    obtain ⟨call, hc, -⟩ := h.waits s i rfl
    have hne : c.nextId ≠ i := by
      have := h.ledger.lt_nextId hc
      omega
    simp [Greeting.Progress.core, hne]
  | halted handed heard => rfl

/-- A call that has nothing to do with what goes on is made. -/
theorem addPlain (h : c.Carries k g p) {method : String} (kind : CallKind)
    {onResult onError : List Continuation} {t : Treatment}
    (account : t = .account → method ∈ accountMethods)
    (asIs : Handshake.isGreeting method → t = .asIs)
    (plain : ∀ q ∈ onResult ++ onError, k.Plain c.nextId q) :
    (c.addCall (.start c.nextId method kind onResult onError) t).Carries k g p := by
  refine h.addCall kind account asIs (fun v => ?_) (fun _ _ _ => rfl) fun _ _ he => .inl he
  rw [h.core_nextId, Verdict.waiting_start]
  exact Conduct.around_of_plain fun q hq => plain q (Verdict.mem_choose hq)

/-- The request of a stage is made where no other call goes on with the handshake. -/
theorem addStage {handed : List String} {heard : List (String × CallbackKind × Outcome)}
    (h : c.Carries k g (.halted handed heard)) (s : Greeting.Stage) (kind : CallKind) :
    (c.addCall (.start c.nextId s.method kind (s.onResult g)
      (World.reactions g.handshake.onError)) .asIs).Carries k g (.waiting s c.nextId) := by
  refine h.addCall kind nofun (fun _ => rfl) (fun v => ?_) (fun v i hi => ?_) fun s' i he => ?_
  · rw [Verdict.waiting_start, Greeting.Progress.core, if_pos rfl]
    exact Conduct.around_core _
  · simp [Greeting.Progress.core, Nat.ne_of_lt hi]
  · cases he
    exact .inr ⟨rfl, rfl⟩

/-- More is to be done once a call has settled. -/
theorem await (h : c.Carries k g p) {onResult onError : List Continuation}
    (new : ∀ v : Verdict, ∀ call ∈ c.calls, call.id = id →
      k.Around id (p'.core g v id) (v.waiting (call.await onResult onError)))
    (old : ∀ (v : Verdict) i, i ≠ id → p'.core g v i = p.core g v i)
    (waits : ∀ s i, p' = .waiting s i → p = .waiting s i ∨ i = id ∧
      ∃ call, c.call? id = some call ∧ call.method = s.method ∧ call.status = .pending) :
    (c.updateCall id (Call.await onResult onError)).Carries k g p' := by
  have hsame : ∀ {call}, call ∈ (c.updateCall id (Call.await onResult onError)).calls →
      ∃ call₀ ∈ c.calls, call.id = call₀.id ∧ call.method = call₀.method ∧
        call.status = call₀.status ∧ call.verdict? = call₀.verdict? := by
    intro call hc
    rcases mem_updateCall hc with ⟨call₀, hc₀, -, rfl⟩ | ⟨hc₀, -⟩
    · exact ⟨call₀, hc₀, rfl, rfl, rfl, rfl⟩
    · exact ⟨call, hc₀, rfl, rfl, rfl, rfl⟩
  refine ⟨h.handlers, h.ledger.updateWaiting id (fun _ => rfl) (fun _ => rfl) fun _ => rfl,
    fun q hq call hc hg => ?_, fun call hc hs => ?_, fun hk call hc hg hp => ?_,
    fun call hc v => ?_, fun s i he => ?_⟩
  · obtain ⟨call₀, hc₀, hid, hm, -⟩ := hsame (mem_of_call? hc)
    have hfound : c.call? q.id = some call₀ := by
      rw [← call?_eq_some_id hc, hid]
      exact h.ledger.call?_of_mem hc₀
    exact h.asIs q hq call₀ hfound (by simpa only [Call.isGreeting, hm] using hg)
  · obtain ⟨call₀, hc₀, -, -, hstatus, hv⟩ := hsame hc
    rw [hv]
    exact h.settled call₀ hc₀ (hstatus ▸ hs)
  · obtain ⟨call₀, hc₀, hid, hm, hstatus, -⟩ := hsame hc
    rw [hid, hm]
    exact h.tabled hk call₀ hc₀ (by simpa only [Call.isGreeting, hm] using hg) (hstatus ▸ hp)
  · rcases mem_updateCall hc with ⟨call₀, hc₀, rfl, rfl⟩ | ⟨hc₀, hne⟩
    · exact new v call₀ hc₀ rfl
    · rw [old v _ hne]
      exact h.around call hc₀ v
  · have hwaits : ∃ call, c.call? i = some call ∧ call.method = s.method ∧
        call.status = .pending := by
      rcases waits s i he with hp | ⟨rfl, hw⟩
      · exact h.waits s i hp
      · exact hw
    obtain ⟨call, hc, hm, hp⟩ := hwaits
    obtain ⟨call', hc', hm', hp'⟩ := becomes_updateCall (f := Call.await onResult onError)
      (R := fun call call' => call'.method = call.method ∧ call'.status = call.status)
      (fun _ => ⟨rfl, rfl⟩) (fun _ => rfl) (fun _ => ⟨rfl, rfl⟩) hc
    exact ⟨call', hc', hm'.trans hm, hp'.trans hp⟩

/-- Something plain is to be done once a call has settled. -/
theorem awaitPlain (h : c.Carries k g p) {onResult onError : List Continuation}
    (plain : ∀ q ∈ onResult ++ onError, k.Plain id q) :
    (c.updateCall id (Call.await onResult onError)).Carries k g p := by
  refine h.await (fun v call hc hid => ?_) (fun _ _ _ => rfl) fun _ _ he => .inl he
  subst hid
  rw [Verdict.waiting_await]
  exact (h.around call hc v).append fun q hq => plain q (Verdict.mem_choose hq)

/-- A call takes on the handshake that no other one goes on with. -/
theorem awaitStage {handed : List String} {heard : List (String × CallbackKind × Outcome)}
    (h : c.Carries k g (.halted handed heard)) (s : Greeting.Stage)
    (found : c.call? id = some call) (method : call.method = s.method)
    (pending : call.status = .pending) :
    (c.updateCall id (Call.await (s.onResult g) (World.reactions g.handshake.onError))).Carries k g
      (.waiting s id) := by
  refine h.await (fun v call hc hid => ?_) (fun v i hi => ?_) fun s' i he => ?_
  · subst hid
    rw [Verdict.waiting_await, Greeting.Progress.core, if_pos rfl]
    exact (h.around call hc v).behind _
  · simp [Greeting.Progress.core, hi]
  · cases he
    exact .inr ⟨rfl, call, found, method, pending⟩

end Carries

end Client

end GhostText
