import GhostText.Proofs.Client.Tally

/-!
# Calls and their responses

In a run of a client in which one thing is done after the other, the calls are numbered in the order
in which they are made, and the table holds those that may still be answered. A call settles with
the first response to it that arrives while it is in the table, or when its own message is refused,
and every callback is told the outcome of its own call, once.
-/

namespace GhostText

/-- What an action settles a call with that was made before. -/
def World.verdict (a : Action) (id : Nat) (w : World) : Option Verdict :=
  match a with
  | .client (.receive bytes) => w.client.verdictOf (w.client.reader.feed bytes).bodies id
  | _ => none

/-- Every call is found again, settled with its verdict if there is one. -/
def World.Settles (w w' : World) (verdict : Nat → Option Verdict) : Prop :=
  ∀ id c, w.client.call? id = some c → ∃ c', w'.client.call? id = some c' ∧
    c'.outcome = ((verdict id).elim c fun v => c.settle v).outcome

/-- The calls and their callbacks are as they should be after what was done. -/
structure World.Correlated (t : Tally) (w : World) : Prop where
  quiet : w.Quiet
  ledger : w.client.Ledger
  made : w.client.calls.length = t.made
  closed : t.closed ≤ t.made
  pending : w.client.pendingIds =
    ((w.client.calls.drop t.closed).filter Call.isPending).map Call.id
  plain : ∀ c ∈ w.client.calls, c.Plain
  known : ∀ r ∈ t.registrations, r.id ≤ t.made
  waiting : ∀ c ∈ w.client.calls, c.isPending → ∀ v : Verdict,
    (v.waiting c).filterMap Continuation.label? = t.labels c.id v.kind
  told : w.callbacks.Perm (t.registrations.filterMap w.client.heard?)

namespace World

variable {w w' w'' : World} {t : Tally} {run : Runner}

/-! ## Settles -/

theorem settles_of_calls (h : w'.client.calls = w.client.calls) : w.Settles w' fun _ => none := by
  intro id c hc
  exact ⟨c, by rwa [Client.call?, h], rfl⟩

theorem Passes.settles (h : w.Passes w') : w.Settles w' fun _ => none := settles_of_calls h.calls

/-- Which calls settle is said of the calls there are, so others do not count. -/
theorem Settles.congr {S S' : Nat → Option Verdict} (h : w.Settles w' S)
    (he : ∀ id, (w.client.call? id).isSome → S' id = S id) : w.Settles w' S' := by
  intro id c hc
  rw [he id (by rw [hc]; rfl)]
  exact h id c hc

/-- What settles in two steps settles in one of them. -/
theorem Settles.trans {S S' T : Nat → Option Verdict} (h : w.Settles w' S) (h' : w'.Settles w'' S')
    (hT : ∀ id, S id = none ∧ T id = S' id ∨ S' id = none ∧ T id = S id) : w.Settles w'' T := by
  intro id c hc
  obtain ⟨c', hc', ho⟩ := h id c hc
  obtain ⟨c'', hc'', ho'⟩ := h' id c' hc'
  refine ⟨c'', hc'', ho'.trans ?_⟩
  rcases hT id with ⟨hS, hT⟩ | ⟨hS', hT⟩
  · rw [hS] at ho
    rw [hT]
    cases S' id with
    | none => exact ho
    | some v => exact Call.outcome_settle v ho
  · rw [hS', hT]
    exact ho

/-! ## One thing after the other -/

theorem Correlated.congr (h : w.Correlated t) (calls : w'.client.calls = w.client.calls)
    (pending : w'.client.pending = w.client.pending)
    (quiet : w'.Quiet) (callbacks : w'.callbacks = w.callbacks) : w'.Correlated t := by
  exact ⟨quiet, h.ledger.congr calls pending, by rw [calls, h.made], h.closed,
    by rw [Client.pendingIds, pending, calls, ← h.pending, Client.pendingIds], calls ▸ h.plain,
    h.known, calls ▸ h.waiting, by rw [callbacks, Client.heard?_congr calls]; exact h.told⟩

/-- What settles no call keeps the tally. -/
theorem Correlated.passes (h : w.Correlated t) (hp : w.Passes w') : w'.Correlated t :=
  h.congr hp.calls hp.pending (hp.quiet h.quiet) (hp.told.trans (List.append_nil _))

/-- A call that is not pending any more leaves the table. -/
theorem Correlated.endCall (h : w.Correlated t) {id : Nat} {f : Call → Call}
    (hid : ∀ call, (f call).id = call.id) (hend : ∀ call, (f call).isPending = false)
    (hplain : ∀ call, call.Plain → (f call).Plain)
    (calls : w'.client.calls = ((w.client.dropPending id).updateCall id f).calls)
    (pending : w'.client.pending = (w.client.dropPending id).pending) (quiet : w'.Quiet)
    (told : w'.callbacks.Perm (t.registrations.filterMap w'.client.heard?)) : w'.Correlated t := by
  refine ⟨quiet, (h.ledger.endCall hid id).congr calls pending, ?_, h.closed, ?_, fun k hk => ?_,
    h.known, fun k hk hkp v => ?_, told⟩
  · rw [calls, Client.length_updateCall]
    exact h.made
  · have hfilter : (w.client.dropPending id).pendingIds =
        w.client.pendingIds.filter (· != id) := by
      rw [Client.pendingIds, Client.pendingIds, List.filter_map]
      rfl
    have hpending : w'.client.pendingIds = (w.client.dropPending id).pendingIds := by
      rw [Client.pendingIds, pending, Client.pendingIds]
    have hcalls : w'.client.calls = w.client.calls.map fun k => if k.id = id then f k else k :=
      calls
    rw [hpending, hfilter, h.pending, hcalls, ← List.map_drop, Client.pendingIds_map hend]
  · rcases Client.mem_updateCall (calls ▸ hk) with ⟨k₀, hk₀, -, rfl⟩ | ⟨hk, -⟩
    · exact hplain k₀ (h.plain k₀ hk₀)
    · exact h.plain k hk
  · rcases Client.mem_updateCall (calls ▸ hk) with ⟨k₀, -, -, rfl⟩ | ⟨hk, -⟩
    · simp [hend] at hkp
    · exact h.waiting k hk hkp v

/-- A call in the table settles, and its callbacks are told. -/
theorem Correlated.settle (h : w.Correlated t) {p : PendingCall} (hp : p ∈ w.client.pending)
    {c : Call} (hc : w.client.call? p.id = some c) (v : Verdict)
    (hw : (w.updateClient fun k => (k.dropPending p.id).updateCall p.id (Call.settle v)).CallsBack
      w' (((v.waiting c).filterMap Continuation.label?).map v.told)) :
    w'.Correlated t ∧ w.Settles w' fun i => if i = p.id then some v else none := by
  obtain ⟨c', hc', hpending, -⟩ := h.ledger.waiting p hp
  obtain rfl := Option.some.inj (hc.symm.trans hc')
  have hfound : ∀ i, w'.client.call? i =
      if i = p.id then (w.client.call? i).map (Call.settle v) else w.client.call? i := by
    intro i
    rw [Client.call?, hw.calls, ← Client.call?, updateClient,
      Client.call?_updateCall v.settling.id]
    rfl
  -- the callbacks of the call are new among those that were told
  have hnew : (((v.waiting c).filterMap Continuation.label?).map v.told) =
      t.registrations.filterMap fun r =>
        if r.id = p.id ∧ r.kind = v.kind then some (v.told r.label) else none := by
    rw [h.waiting c (Client.mem_of_call? hc) hpending v, Client.call?_eq_some_id hc, Tally.labels,
      List.map_map, map_filter_eq_filterMap]
    rfl
  have htold : w'.callbacks.Perm (t.registrations.filterMap w'.client.heard?) := by
    rw [hw.told, hnew]
    refine (h.told.append_right _).trans (perm_filterMap fun r _ => ?_).symm
    by_cases hr : r.id = p.id
    · right
      have hold : w.client.heard? r = none :=
        Client.heard?_of_pending (hr ▸ hc) (by simp_all [Call.isPending])
      refine ⟨hold, ?_⟩
      rw [Client.heard?, hfound, if_pos hr, hr, hc]
      simp [Call.verdict?_settle, eq_comm]
    · left
      refine ⟨?_, by simp [hr]⟩
      rw [Client.heard?, hfound, if_neg hr, Client.heard?]
  refine ⟨h.endCall v.settling.id (fun call => ?_) (fun call _ => ?_) hw.calls hw.pending
    (hw.quiet ⟨h.quiet.answers, h.quiet.handlers, h.quiet.subscriptions⟩) htold, fun i k hk => ?_⟩
  · simp [Call.isPending, v.settling.status call]
  · exact ⟨by simp [v.settling.onResult], by simp [v.settling.onError]⟩
  · rw [hfound, hk]
    split
    · next hi => exact ⟨_, rfl, by simp [hi]⟩
    · next hi => exact ⟨_, rfl, by simp [hi]⟩

/-- A change of a call that does not concern its outcome. -/
theorem settles_updateCall {id : Nat} {f : Call → Call} (hid : ∀ call, (f call).id = call.id)
    (hf : ∀ call, (f call).outcome = call.outcome) :
    w.Settles (w.updateClient fun k => k.updateCall id f) fun _ => none := by
  intro i c hc
  refine ⟨if i = id then f c else c, ?_, ?_⟩
  · rw [updateClient, Client.call?_updateCall hid, hc]
    split <;> rfl
  · split
    · exact hf c
    · rfl

/-- A call is given up. -/
theorem Correlated.cancel (h : w.Correlated t) (id : Nat) :
    (w.updateClient fun k => (k.updateCall id Call.cancel).dropPending id).Correlated t := by
  have hheard : (w.updateClient fun k =>
      (k.updateCall id Call.cancel).dropPending id).client.heard? = w.client.heard? :=
    (Client.heard?_congr rfl).trans
      (Client.heard?_updateCall (f := Call.cancel) (fun _ => rfl) fun _ => rfl)
  refine h.endCall (f := Call.cancel) (fun _ => rfl) (fun call => ?_) (fun call _ => ?_) rfl rfl
    ⟨h.quiet.answers, h.quiet.handlers, h.quiet.subscriptions⟩ (hheard ▸ h.told)
  · simp [Call.isPending, Call.cancel]
  · exact ⟨by simp [Call.cancel], by simp [Call.cancel]⟩

/-- Callbacks are registered for a call that has not settled. -/
theorem Correlated.await (h : w.Correlated t) {id : Nat} {c : Call}
    (hc : w.client.call? id = some c) (hv : c.verdict? = none) {r : Reactions Action}
    (hr : ∀ c ∈ r.callbacks, ∀ a ∈ c.script, a.isPassive) :
    (w.updateClient fun k => k.updateCall id (Call.await (onResult r) (onError r))).Correlated
      (t.register id r) := by
  have hid : ∀ call : Call, (call.await (onResult r) (onError r)).id = call.id := fun _ => rfl
  have hpending : ∀ call : Call,
      (call.await (onResult r) (onError r)).isPending = call.isPending := fun _ => rfl
  have hwaiting : ∀ (v : Verdict) (call : Call), v.waiting (call.await (onResult r) (onError r)) =
      v.waiting call ++ v.reactions r := by
    intro v call
    cases v <;> rfl
  refine ⟨⟨h.quiet.answers, h.quiet.handlers, h.quiet.subscriptions⟩, ?_, ?_, h.closed, ?_,
    fun k hk => ?_, fun q hq => ?_, fun k hk hkp v => ?_, ?_⟩
  · exact h.ledger.updateWaiting id hid hpending fun _ => rfl
  · exact (Client.length_updateCall ..).trans h.made
  · refine h.pending.trans ?_
    simp only [updateClient, Client.updateCall, ← List.map_drop]
    refine (Client.pendingIds_map_of_eq (fun k => ?_) fun k => ?_).symm
    · split <;> rfl
    · split <;> rfl
  · rcases Client.mem_updateCall hk with ⟨k₀, hk₀, -, rfl⟩ | ⟨hk, -⟩
    · have hplain := h.plain k₀ hk₀
      exact ⟨List.forall_mem_append.2 ⟨hplain.onResult, isCallback_onResult hr⟩,
        List.forall_mem_append.2 ⟨hplain.onError, isCallback_onError hr⟩⟩
    · exact h.plain k hk
  · rcases List.mem_append.1 hq with hq | hq
    · exact h.known q hq
    · rw [Reactions.id_registrations hq]
      exact h.made ▸ Nat.le_of_lt_succ (h.ledger.lt_nextId hc)
  · rcases Client.mem_updateCall hk with ⟨k₀, hk₀, he, rfl⟩ | ⟨hk, hne⟩
    · rw [hwaiting, List.filterMap_append, h.waiting k₀ hk₀ (hpending k₀ ▸ hkp) v, hid, he,
        Tally.labels_register_self]
    · rw [h.waiting k hk hkp v, Tally.labels_register_of_ne hne]
  · have hheard : (w.updateClient fun k =>
        k.updateCall id (Call.await (onResult r) (onError r))).client.heard? = w.client.heard? :=
      Client.heard?_updateCall hid fun _ => rfl
    rw [hheard, Tally.register, List.filterMap_append, Client.heard?_registrations_none hc hv,
      List.append_nil]
    exact h.told

/-- Callbacks that are registered for a call that has settled are told at once. -/
theorem Correlated.tell (h : w.Correlated t) {id : Nat} {c : Call}
    (hc : w.client.call? id = some c) {v : Verdict} (hv : c.verdict? = some v)
    (r : Reactions Action)
    (hw : w.CallsBack w' (((v.reactions r).filterMap Continuation.label?).map v.told)) :
    w'.Correlated (t.register id r) := by
  have hne : ∀ k ∈ w.client.calls, k.isPending → k.id ≠ id := by
    rintro k hk hkp rfl
    obtain rfl := Option.some.inj (hc.symm.trans (h.ledger.call?_of_mem hk))
    simp_all [Call.isPending, Call.verdict?]
  refine ⟨hw.quiet h.quiet, h.ledger.congr hw.calls hw.pending, by rw [hw.calls, h.made]; rfl,
    h.closed, ?_, hw.calls ▸ h.plain, fun q hq => ?_, fun k hk hkp v' => ?_, ?_⟩
  · rw [Client.pendingIds, hw.pending, hw.calls]
    exact h.pending
  · rcases List.mem_append.1 hq with hq | hq
    · exact h.known q hq
    · rw [Reactions.id_registrations hq]
      exact h.made ▸ Nat.le_of_lt_succ (h.ledger.lt_nextId hc)
  · rw [hw.calls] at hk
    rw [h.waiting k hk hkp v', Tally.labels_register_of_ne (hne k hk hkp)]
  · rw [hw.told, Client.heard?_congr hw.calls, Tally.register, List.filterMap_append,
      Client.heard?_registrations hc hv]
    exact h.told.append_right _

/-- A call is made. -/
theorem Correlated.make (h : w.Correlated t) (method : String) (kind : CallKind)
    {treatment : Treatment} (account : treatment = .account → method ∈ accountMethods)
    {r : Reactions Action} (hr : ∀ c ∈ r.callbacks, ∀ a ∈ c.script, a.isPassive) :
    (w.updateClient fun c => c.addCall (.start w.client.nextId method kind (onResult r) (onError r))
      treatment).Correlated ({ t with made := t.made + 1 }.register (t.made + 1) r) := by
  have hnext : w.client.nextId = t.made + 1 := by rw [Client.nextId, h.made]
  refine ⟨⟨h.quiet.answers, h.quiet.handlers, h.quiet.subscriptions⟩, ?_, ?_, ?_, ?_,
    fun k hk => ?_, fun q hq => ?_, fun k hk hkp v => ?_, ?_⟩
  · exact h.ledger.addCall method kind _ _ treatment account
  · simp [updateClient, Client.addCall, Tally.register, h.made]
  · exact Nat.le_succ_of_le h.closed
  · have hclosed : t.closed ≤ w.client.calls.length := h.made ▸ h.closed
    have hpending := h.pending
    simp only [Client.pendingIds] at hpending
    simp [updateClient, Client.addCall, Client.pendingIds, Tally.register,
      List.drop_append_of_le_length hclosed, hpending, Call.start, Call.isPending]
  · rcases List.mem_append.1 hk with hk | hk
    · exact h.plain k hk
    · obtain rfl := List.mem_singleton.1 hk
      exact ⟨isCallback_onResult hr, isCallback_onError hr⟩
  · rcases List.mem_append.1 hq with hq | hq
    · exact Nat.le_succ_of_le (h.known q hq)
    · exact Nat.le_of_eq (Reactions.id_registrations hq)
  · rcases List.mem_append.1 hk with hk | hk
    · have hlt := (h.ledger.id_le hk).2
      rw [h.waiting k hk hkp v, Tally.labels_register_of_ne (by omega)]
      rfl
    · obtain rfl := List.mem_singleton.1 hk
      have hwaiting : v.waiting (.start w.client.nextId method kind (onResult r) (onError r)) =
          v.reactions r := by
        cases v <;> rfl
      have hlabels := Tally.labels_register_self { t with made := t.made + 1 } (t.made + 1) r v
      rw [Tally.labels_of_lt (t := { t with made := t.made + 1 })
        fun q hq => Nat.lt_succ_of_le (h.known q hq), List.nil_append] at hlabels
      rw [hwaiting, ← hlabels, ← hnext]
      rfl
  · -- what is registered for the new call waits, and the others are told what they were told
    have hfound : (w.client.addCall (.start w.client.nextId method kind (onResult r) (onError r))
        treatment).call? w.client.nextId = _ := h.ledger.call?_addCall_self rfl treatment
    have hsame : t.registrations.filterMap (w.client.addCall
        (.start w.client.nextId method kind (onResult r) (onError r)) treatment).heard? =
          t.registrations.filterMap w.client.heard? := by
      refine List.filterMap_congr fun q hq => Client.heard?_addCall treatment ?_
      have hle := h.known q hq
      simp only [Call.start]
      omega
    rw [← hnext, Tally.register, List.filterMap_append]
    simp only [updateClient]
    rw [hsame, Client.heard?_registrations_none hfound rfl, List.append_nil]
    exact h.told

/-! ## The operations -/

theorem Correlated.acceptWrites (h : w.Correlated t) (b : Bool) :
    ({ w with transport := { w.transport with accepting := b } } : World).Correlated t :=
  h.congr rfl rfl ⟨h.quiet.answers, h.quiet.handlers, h.quiet.subscriptions⟩ rfl

/-- Closing empties the table and leaves the calls as they are. -/
theorem Correlated.close (h : w.Correlated t) :
    w.closeClient.Correlated { t with closed := t.made } ∧
      w.Settles w.closeClient fun _ => none := by
  obtain ⟨w₁, asides, he⟩ := closeClient_eq w
  have hlog := asides.passes
  have h₁ := h.passes hlog
  rw [he]
  refine ⟨⟨⟨h₁.quiet.answers, h₁.quiet.handlers, h₁.quiet.subscriptions⟩, ?_, h₁.made,
    Nat.le_refl _, ?_, h₁.plain, h₁.known, h₁.waiting, ?_⟩, settles_of_calls hlog.calls⟩
  · exact h₁.ledger.disconnect
  · simp [updateClient, Client.disconnect, Client.pendingIds,
      List.drop_of_length_le (Nat.le_of_eq h₁.made)]
  · exact h₁.told

/-- Giving up a call settles none. -/
theorem Correlated.cancelCall (h : w.Correlated t) (id : Nat) :
    (cancelCall id w).2.Correlated t ∧ w.Settles (cancelCall id w).2 fun _ => none := by
  unfold World.cancelCall
  cases hc : w.client.call? id with
  | none => exact ⟨h, settles_of_calls rfl⟩
  | some c =>
    dsimp only
    split
    · exact ⟨h, settles_of_calls rfl⟩
    · next hp =>
      have hnotify := passes_notify "$/cancelRequest" (.obj [("id", .int id)])
        (w.updateClient fun k => (k.updateCall id Call.cancel).dropPending id)
      have hsettles : w.Settles
          (w.updateClient fun k => (k.updateCall id Call.cancel).dropPending id) fun _ => none :=
        settles_updateCall (f := Call.cancel) (fun _ => rfl) fun _ => rfl
      exact ⟨(h.cancel id).passes hnotify,
        hsettles.trans hnotify.settles fun _ => Or.inl ⟨rfl, rfl⟩⟩

theorem Correlated.cancelRequest (h : w.Correlated t) (id : Json) :
    (cancelRequest id w).2.Correlated t ∧ w.Settles (cancelRequest id w).2 fun _ => none := by
  unfold World.cancelRequest
  cases id.toInteger with
  | error f => exact ⟨h, settles_of_calls rfl⟩
  | ok n =>
    dsimp only
    cases w.client.pendingFor? (.int n) with
    | none => exact ⟨h, settles_of_calls rfl⟩
    | some p => exact h.cancelCall p.id

/-- A callback is told at once where the call has settled, and else it waits. -/
theorem andThen_eq {id : Nat} {c : Call} (hc : w.client.call? id = some c) (r : Reactions Action) :
    andThen run id (onResult r) (onError r) w =
      match c.verdict? with
      | some v => (v.reactions r).foldl (fun w q => w.callBack (v.continueWith run q)) w
      | none => w.updateClient fun k => k.updateCall id (Call.await (onResult r) (onError r)) := by
  rw [andThen_eq_choose hc]
  cases c.verdict? with
  | none => rfl
  | some v => cases v <;> rfl

section Running

variable (hr : run.Passive)

include hr

/-- Who comes to a call later is noted for it, and called at once if it has settled. -/
theorem Correlated.andThen (h : w.Correlated t) (id : Nat) {r : Reactions Action}
    (hpassive : ∀ c ∈ r.callbacks, ∀ a ∈ c.script, a.isPassive) :
    (andThen run id (onResult r) (onError r) w).Correlated
      (if 0 < id ∧ id ≤ t.made then t.register id r else t) ∧
      w.Settles (andThen run id (onResult r) (onError r) w) fun _ => none := by
  have hknown := h.ledger.call?_eq_none id
  rw [h.made] at hknown
  cases hc : w.client.call? id with
  | none =>
    rw [if_neg (hknown.1 hc)]
    simp only [World.andThen, hc]
    exact ⟨h, settles_of_calls rfl⟩
  | some c =>
    rw [if_pos (by_contra fun hn => by simp [hknown.2 hn] at hc), andThen_eq hc]
    cases hv : c.verdict? with
    | some v =>
      have hq : ∀ q ∈ v.reactions r, q.IsCallback v.kind := by
        cases v with
        | ok reply => exact isCallback_onResult hpassive
        | error f => exact isCallback_onError hpassive
      have htold := callsBack_foldl hr hq h.quiet.answers
      exact ⟨h.tell hc hv r htold, settles_of_calls htold.calls⟩
    | none =>
      exact ⟨h.await hc hv hpassive, settles_updateCall (fun _ => rfl) fun _ => rfl⟩

/-- A call leaves the table and settles, and runs what waits for it. -/
theorem Correlated.settleBy (h : w.Correlated t) {p : PendingCall} (hp : p ∈ w.client.pending)
    {c : Call} (hc : w.client.call? p.id = some c) (pending : c.status = .pending) (v : Verdict) :
    (World.settleBy run p.id v (w.updateClient fun k => k.dropPending p.id)).Correlated t ∧
      w.Settles (World.settleBy run p.id v (w.updateClient fun k => k.dropPending p.id))
        fun i => if i = p.id then some v else none :=
  h.settle hp hc v (callsBack_settleBy (w := w.updateClient fun k => k.dropPending p.id) hr hc
    pending (h.plain c (Client.mem_of_call? hc)) h.quiet.answers)

/-- A request is in the table until it is answered, or it is refused. -/
theorem Correlated.request (h : w.Correlated t) (kind : CallKind) (method params : Json)
    {treatment : Treatment} (account : treatment = .account → method.textOrEmpty ∈ accountMethods)
    {r : Reactions Action} (hpassive : ∀ c ∈ r.callbacks, ∀ a ∈ c.script, a.isPassive) :
    (request run kind method params (onResult r) (onError r) treatment w).2.Correlated
        ({ t with made := t.made + 1 }.register (t.made + 1) r) ∧
      w.Settles (request run kind method params (onResult r) (onError r) treatment w).2
        (fun _ => none) ∧
      ∃ c, (request run kind method params (onResult r) (onError r) treatment w).2.client.call?
          (t.made + 1) = some c ∧
        c.status = if w.transport.accepting then .pending else .rejected := by
  have hnext : w.client.nextId = t.made + 1 := by rw [Client.nextId, h.made]
  have hmade := h.make method.textOrEmpty kind account hpassive
  set call := Call.start w.client.nextId method.textOrEmpty kind (onResult r) (onError r) with hcall
  have hfound : (w.client.addCall call treatment).call? w.client.nextId = some call :=
    h.ledger.call?_addCall_self rfl treatment
  have hbefore : w.Settles (w.updateClient fun c => c.addCall call treatment) fun _ => none := by
    intro i c hc
    exact ⟨c, by rw [updateClient, Client.call?_addCall, hc]; rfl, rfl⟩
  cases haccepting : w.transport.accepting with
  | true =>
    have hposted := passes_post
      (Message.request (.int w.client.nextId) method.textOrEmpty params).toJson
      (w.updateClient fun c => c.addCall call treatment)
    rw [request_eq_post run kind method params _ _ treatment haccepting
      (by rw [h.quiet.answers, List.lookup_nil])]
    refine ⟨hmade.passes hposted, hbefore.trans hposted.settles fun _ => Or.inl ⟨rfl, rfl⟩, call,
      ?_, rfl⟩
    rw [← hnext, Client.call?, hposted.calls]
    exact hfound
  | false =>
    obtain ⟨f, w₁, hasides, hrequest⟩ := request_of_refusing run kind method params (onResult r)
      (onError r) treatment haccepting
    have hpasses := hasides.passes
    have hp : (⟨w.client.nextId, method.textOrEmpty, treatment⟩ : PendingCall) ∈
        w₁.client.pending := by
      rw [hpasses.pending]
      exact List.mem_append_right _ (List.mem_singleton.2 rfl)
    have hc : w₁.client.call? w.client.nextId = some call := by
      rw [Client.call?, hpasses.calls]
      exact hfound
    obtain ⟨hcorrelated, hsettles⟩ := (hmade.passes hpasses).settleBy hr hp hc rfl (.error f)
    rw [hrequest]
    refine ⟨hcorrelated, ?_, ?_⟩
    · -- the call that settles was not there before
      refine ((hbefore.trans hpasses.settles fun _ => Or.inl ⟨rfl, rfl⟩).trans hsettles
        fun _ => Or.inl ⟨rfl, rfl⟩).congr fun i hi => (if_neg ?_).symm
      rintro rfl
      rw [h.ledger.call?_nextId] at hi
      cases hi
    · obtain ⟨c', hc', ho⟩ := hsettles _ call hc
      simp only [if_true, Option.elim_some] at ho
      exact ⟨c', hnext ▸ hc', congrArg Prod.fst ho⟩

/-- A body that arrives settles the call it is a response to, if that is in the table. -/
theorem Correlated.dispatch (h : w.Correlated t) (b : Frame.Body) :
    (dispatch run w b).Correlated t ∧ ∃ S, w.Settles (dispatch run w b) S ∧ ∀ bodies id,
      S id = none ∧
          w.client.verdictOf (b :: bodies) id = (dispatch run w b).client.verdictOf bodies id ∨
        (dispatch run w b).client.verdictOf bodies id = none ∧
          w.client.verdictOf (b :: bodies) id = S id := by
  rcases dispatch_cases hr h.quiet b with
    ⟨hnone, hpasses⟩ | ⟨p, hp, result, error, w₁, hb, hdrop, hrest⟩
  · refine ⟨h.passes hpasses, fun _ => none, hpasses.settles, fun bodies id => Or.inl ⟨rfl, ?_⟩⟩
    simp only [Client.verdictOf, hpasses.pending, List.findSome?_cons]
    cases hq : w.client.pending.find? fun q => q.id = id with
    | none => rfl
    | some q =>
      have hid : q.id = id := by simpa using List.find?_some hq
      rw [← hid, hnone q (List.mem_of_find?_eq_some hq)]
  · obtain ⟨c, hc, hpending, -⟩ := h.ledger.waiting p hp
    have hc₁ : w₁.client.call? p.id = some c := by
      rw [Client.call?, hdrop.calls]
      exact hc
    have hquiet₁ : w₁.Quiet :=
      hdrop.quiet ⟨h.quiet.answers, h.quiet.handlers, h.quiet.subscriptions⟩
    have hset := callsBack_settleBy (v := p.treatment.verdict result error) hr hc₁
      (by simp_all [Call.isPending]) (h.plain c (Client.mem_of_call? hc)) hquiet₁.answers
    have hall := (Passes.callsBack (hdrop.updateCall p.id _) hset).passes hrest
    obtain ⟨hcorrelated, hsettles⟩ := h.settle hp hc _ hall
    refine ⟨hcorrelated, _, hsettles, fun bodies id => ?_⟩
    have hpend : (World.dispatch run w b).client.pending = (w.client.dropPending p.id).pending :=
      hall.pending
    by_cases hid : id = p.id
    · subst hid
      refine Or.inr ⟨?_, ?_⟩
      · rw [Client.verdictOf, hpend, Client.find?_dropPending_self]
        rfl
      · rw [Client.verdictOf, h.ledger.find?_pending hp, List.findSome?_cons, hb, if_pos rfl]
        rfl
    · have hother : b.responseTo? id = none := by
        cases ho : b.responseTo? id with
        | none => rfl
        | some r =>
          exact absurd (Frame.Body.responseTo?_inj (by rw [ho]; rfl) (by rw [hb]; rfl)) hid
      refine Or.inl ⟨if_neg hid, ?_⟩
      rw [Client.verdictOf, Client.verdictOf, hpend, Client.find?_dropPending_of_ne hid,
        List.findSome?_cons, hother]

/-- Each call settles with the first response to it among some messages. -/
theorem Correlated.dispatchAll (h : w.Correlated t) (bodies : List Frame.Body) :
    (bodies.foldl (World.dispatch run) w).Correlated t ∧
      w.Settles (bodies.foldl (World.dispatch run) w) fun id => w.client.verdictOf bodies id := by
  induction bodies generalizing w with
  | nil =>
    refine ⟨h, (settles_of_calls rfl).congr fun id _ => ?_⟩
    rw [Client.verdictOf]
    cases w.client.pending.find? fun p => p.id = id <;> rfl
  | cons b bodies ih =>
    obtain ⟨hfirst, S, hsettles, hS⟩ := h.dispatch hr b
    obtain ⟨hrest, hsettles'⟩ := ih hfirst
    exact ⟨hrest, hsettles.trans hsettles' (hS bodies)⟩

/-- Each call settles with the first response to it among the messages that some bytes complete. -/
theorem Correlated.receive (h : w.Correlated t) (bytes : List UInt8) :
    (receive run bytes w).Correlated t ∧ w.Settles (receive run bytes w) fun id =>
      w.client.verdictOf (w.client.reader.feed bytes).bodies id := by
  have hread : w.Passes (w.updateClient fun c =>
      { c with reader := (w.client.reader.feed bytes).reader }) := passes_client rfl rfl rfl
  have hbefore := hread.trans (addsAsides_feed bytes w).passes
  rw [receive_eq]
  obtain ⟨hcorrelated, hsettles⟩ :=
    (h.passes hbefore).dispatchAll hr (w.client.reader.feed bytes).bodies
  refine ⟨hcorrelated, hbefore.settles.trans hsettles fun id => Or.inl ⟨rfl, ?_⟩⟩
  rw [Client.verdictOf, Client.verdictOf, hbefore.pending]

end Running

/-! ## Runs -/

theorem snd_answerCall (r : Nat × World) : (answerCall r).2 = r.2 := by
  unfold answerCall
  split <;> rfl

/-- One operation after the others. -/
theorem Correlated.act (h : w.Correlated t) {a : Action} (ha : a.IsPlain) :
    (act a w).2.Correlated (t.count a) ∧ w.Settles (act a w).2 fun id => w.verdict a id := by
  have hr : (runTo depthLimit).Passive := passive_runTo depthLimit
  cases a with
  | client a =>
    cases a with
    | request kind method params r transform =>
      have he : (World.act (.client (.request kind method params r transform)) w).2 =
          (World.request (runTo depthLimit) ((CallKind.ofName? kind).getD .query) method params
            (onResult r) (onError r) (treatmentOf transform) w).2 := snd_answerCall _
      have haccount : treatmentOf transform = .account → method.textOrEmpty ∈ accountMethods := by
        cases transform <;> nofun
      obtain ⟨hcorrelated, hsettles, -⟩ := h.request hr ((CallKind.ofName? kind).getD .query) method
        params haccount ha.callbacks
      rw [he]
      exact ⟨hcorrelated, hsettles⟩
    | andThen id r =>
      have he : (World.act (.client (.andThen id r)) w).2 =
          World.andThen (runTo depthLimit) id (onResult r) (onError r) w := snd_answerCall _
      rw [he]
      exact h.andThen hr id ha.callbacks
    | cancelCall id => exact h.cancelCall id
    | cancelRequest id => exact h.cancelRequest id
    | receive bytes => exact h.receive hr bytes
    | acceptWrites b => exact ⟨h.acceptWrites b, settles_of_calls rfl⟩
    | close => exact h.close
    | _ => cases ha.concernsCalls
  | _ => cases ha.concernsCalls

/-- Along a run the tally is that of its actions. -/
theorem Correlated.after (h : w.Correlated t) {actions : List Action}
    (plain : ∀ a ∈ actions, a.IsPlain) :
    (w.after actions).Correlated (actions.foldl Tally.count t) := by
  induction actions generalizing w t with
  | nil => exact h
  | cons a actions ih =>
    exact ih (h.act (plain a List.mem_cons_self)).1 fun b hb => plain b (List.mem_cons_of_mem _ hb)

theorem Fresh.correlated {t : Transport} (h : w.Fresh Conduct.passive t)
    (answers : t.answers = []) : w.Correlated ⟨0, 0, []⟩ := by
  have hnone : w.callbacks = [] :=
    List.filterMap_eq_nil_iff.2 fun e he => Event.callback?_of_isAside (h.asides e he)
  refine ⟨⟨by rw [h.transport, answers], h.handlers, h.subscriptions⟩, h.sound.ledger,
    by rw [h.calls]; rfl, Nat.le_refl 0, ?_, ?_, ?_, ?_, ?_⟩
  · rw [Client.pendingIds, h.pending, h.calls]
    rfl
  · simp [h.calls]
  · simp
  · simp [h.calls]
  · rw [hnone]
    exact .nil

/-- What a client knows of its calls agrees with what was done. -/
structure Accounts (t : Tally) (w : World) : Prop where
  /-- The calls have the identifiers from one on, in the order in which they were made. -/
  ids : w.client.calls.map Call.id = List.range' 1 t.made
  /-- In the table are the calls that are pending and were made since the client was closed. -/
  pending : w.client.pendingIds =
    ((w.client.calls.drop t.closed).filter Call.isPending).map Call.id
  /-- The callbacks were told the outcomes of their calls, each that was registered for it once. -/
  told : w.callbacks.Perm (t.registrations.filterMap w.client.heard?)
  /-- A call that was made settles with the first response to it while it is in the table, and in no
  other way. -/
  settles : ∀ a : Action, a.IsPlain → w.Settles (World.act a w).2 fun id => w.verdict a id
  /-- A call that has settled or was given up is not settled again. -/
  final : ∀ a id c, w.client.call? id = some c → c.isPending = false → w.verdict a id = none
  /-- A call is pending when it has been made, unless its message was refused. -/
  made : ∀ kind method params r transform,
    (Action.client (.request kind method params r transform)).IsPlain →
      ∃ c, (World.act (.client (.request kind method params r transform)) w).2.client.call?
          (t.made + 1) = some c ∧
        c.status = if w.transport.accepting then .pending else .rejected
  /-- What is not pending cannot be given up, and nothing happens. -/
  cancel : ∀ id c, w.client.call? id = some c → c.isPending = false →
    World.act (.client (.cancelCall id)) w = (.error (.notPending (toString id) (some c.method)), w)

/-- What the tally says of calls and callbacks is what the world shows. -/
theorem Correlated.accounts (h : w.Correlated t) : w.Accounts t := by
  refine ⟨by rw [h.ledger.ids, h.made], h.pending, h.told, fun a ha => (h.act ha).2,
    fun a id c hc hp => ?_, fun kind method params r transform ha => ?_, fun id c hc hp => ?_⟩
  · -- in the table are only calls that are pending
    have hgone : (w.client.pending.find? fun p => p.id = id) = none := by
      refine List.find?_eq_none.2 fun p hmem he => ?_
      obtain ⟨c', hc', hp', -⟩ := h.ledger.waiting p hmem
      rw [of_decide_eq_true he, hc] at hc'
      simp [← Option.some.inj hc', hp] at hp'
    unfold verdict
    split
    · rw [Client.verdictOf, hgone]
      rfl
    · rfl
  · have he : (World.act (.client (.request kind method params r transform)) w).2 =
        (World.request (runTo depthLimit) ((CallKind.ofName? kind).getD .query) method params
          (onResult r) (onError r) (treatmentOf transform) w).2 := snd_answerCall _
    have haccount : treatmentOf transform = .account → method.textOrEmpty ∈ accountMethods := by
      cases transform <;> nofun
    rw [he]
    exact (h.request (passive_runTo depthLimit) _ method params haccount ha.callbacks).2.2
  · have hid := Client.call?_eq_some_id hc
    have he : World.act (.client (.cancelCall id)) w = done (World.cancelCall id w) := rfl
    rw [he, World.cancelCall, hc]
    simp [hp, hid, done]
    rfl

/-- In every run of a client in which one operation is done after the other, with whatever bytes
arrive and whatever messages are refused, the calls correlate with what was done. -/
theorem accounts_after {t : Transport} {setup : ClientSetup} {w : World} (begins : Begins t setup w)
    (equips : Conduct.passive.Equips setup) (answers : t.answers = []) {actions : List Action}
    (plain : ∀ a ∈ actions, a.IsPlain) : (w.after actions).Accounts (Tally.of actions) :=
  (((begins.fresh equips).correlated answers).after plain).accounts

/-- One call is answered, one is refused, and one is given up. -/
theorem accounts_after_three :
    let ask (label : String) : Action := .client
      (.request (.str "query") (.str "m") .null ⟨some ⟨label, []⟩, some ⟨label, []⟩⟩ none)
    let actions : List Action := [ask "a", .client (.acceptWrites false), ask "b",
      .client (.acceptWrites true), ask "c", .client (.cancelCall 3),
      .client (.receive (Frame.encode (Message.response (.int 1) .null none).toJson))]
    let w := (startClient 1 ⟨true, [], .atOnce, false, []⟩ ⟨.null, .null, [], []⟩).after actions
    w.Accounts (Tally.of actions) ∧ w.client.pendingIds = [] ∧
      w.callbacks.map (fun c => (c.1, c.2.1)) = [("b", .error), ("a", .result)] := by
  intro ask actions w
  refine ⟨?_, ?_, ?_⟩
  · exact accounts_after (.client 1) (by simp [Conduct.Equips]) rfl (by decide)
  · decide +kernel
  · decide +kernel

end World

end GhostText
