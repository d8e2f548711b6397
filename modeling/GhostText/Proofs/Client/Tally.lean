import GhostText.Proofs.Client.Settling

/-!
# What was done with the calls, and what became of them

A tally counts the calls that were made and keeps the callbacks that were registered for them. What
a callback is told in the end is read off the call it was registered for, so both together say what
the calls and the table should be like.
-/

namespace GhostText

/-! ## What was done so far -/

/-- A callback that was registered for one outcome of a call. -/
structure Registration where
  id : Nat
  kind : CallbackKind
  label : String
  deriving DecidableEq, Repr

def Reactions.registrations (id : Nat) (r : Reactions Action) : List Registration :=
  (r.onResult.toList.map fun c => ⟨id, .result, c.label⟩) ++
    r.onError.toList.map fun c => ⟨id, .error, c.label⟩

/-- How many calls were made so far, how many of them before the client was closed last, and which
callbacks were registered. -/
structure Tally where
  made : Nat
  closed : Nat
  registrations : List Registration

namespace Tally

def register (id : Nat) (r : Reactions Action) (t : Tally) : Tally :=
  { t with registrations := t.registrations ++ r.registrations id }

def count (t : Tally) : Action → Tally
  | .client (.request _ _ _ r _) => { t with made := t.made + 1 }.register (t.made + 1) r
  | .client (.andThen id r) => if 0 < id ∧ id ≤ t.made then t.register id r else t
  | .client .close => { t with closed := t.made }
  | _ => t

def of (actions : List Action) : Tally := actions.foldl count ⟨0, 0, []⟩

def labels (id : Nat) (kind : CallbackKind) (t : Tally) : List String :=
  (t.registrations.filter fun r => r.id = id ∧ r.kind = kind).map Registration.label

end Tally

namespace Action

/-- The operations on the calls of a client, and what its peer and its transport do. -/
def concernsCalls : Action → Bool
  | .client (.request _ _ _ _ _) => true
  | .client (.andThen _ _) => true
  | .client (.cancelCall _) => true
  | .client (.cancelRequest _) => true
  | .client (.receive _) => true
  | .client (.acceptWrites _) => true
  | .client .close => true
  | _ => false

/-- An operation that brings about no other one from inside a callback. -/
structure IsPlain (a : Action) : Prop where
  concernsCalls : a.concernsCalls
  passive : ∀ b ∈ a.inner, b.isPassive

end Action

instance (a : Action) : Decidable a.IsPlain :=
  decidable_of_iff (a.concernsCalls ∧ ∀ b ∈ a.inner, b.isPassive)
    ⟨fun h => ⟨h.1, h.2⟩, fun h => ⟨h.concernsCalls, h.passive⟩⟩

theorem Action.IsPlain.callbacks {a : Action} (h : a.IsPlain) :
    ∀ c ∈ a.registered.2, ∀ b ∈ c.script, b.isPassive := by
  intro c hc b hb
  refine h.passive b (List.mem_append_left _ (List.mem_flatten.2 ⟨c.script, ?_, hb⟩))
  exact List.mem_map_of_mem hc

/-! ## What became of it -/

namespace Call

def outcome (c : Call) : CallStatus × Option Reply × Option Fault := (c.status, c.result, c.error)

def verdict? (c : Call) : Option Verdict :=
  match c.status, c.result, c.error with
  | .fulfilled, some r, _ => some (.ok r)
  | .rejected, _, some f => some (.error f)
  | _, _, _ => none

end Call

/-- What is to go on with a verdict, of what is for results and what is for errors. -/
def Verdict.choose (onResult onError : List Continuation) : Verdict → List Continuation
  | .ok _ => onResult
  | .error _ => onError

/-- Who waits for a call that has settled is told at once, and else waits. -/
theorem World.andThen_eq_choose {run : Runner} {w : World} {id : Nat} {c : Call}
    (hc : w.client.call? id = some c) (onResult onError : List Continuation) :
    andThen run id onResult onError w =
      match c.verdict? with
      | some v => (v.choose onResult onError).foldl (fun w q => w.callBack (v.continueWith run q)) w
      | none => w.updateClient fun k => k.updateCall id (Call.await onResult onError) := by
  unfold andThen Call.verdict?
  rw [hc]
  cases hs : c.status <;> cases hres : c.result <;> cases herr : c.error <;>
    simp [hs, hres, herr] <;> rfl

/-- What a callback is told in the end, if its call has settled with the outcome it is for. -/
def Client.heard? (c : Client) (r : Registration) : Option (String × CallbackKind × Outcome) :=
  (c.call? r.id).bind fun call => call.verdict?.bind fun v =>
    if v.kind = r.kind then some (v.told r.label) else none

/-- What the first response to a call among some bodies settles it with, if it is in the table. -/
def Client.verdictOf (bodies : List Frame.Body) (id : Nat) (c : Client) : Option Verdict := do
  let p ← c.pending.find? fun p => p.id = id
  let r ← bodies.findSome? (Frame.Body.responseTo? id)
  return p.treatment.verdict r.1 r.2

/-! ## Lists -/

/-- What is new in a list of results, apart from the others. -/
theorem perm_filterMap {α β : Type} {f f' g : α → Option β} {l : List α}
    (h : ∀ a ∈ l, f' a = f a ∧ g a = none ∨ f a = none ∧ f' a = g a) :
    (l.filterMap f').Perm (l.filterMap f ++ l.filterMap g) := by
  induction l with
  | nil => simp
  | cons a l ih =>
    have hrest := ih fun b hb => h b (List.mem_cons_of_mem _ hb)
    rcases h a List.mem_cons_self with ⟨hf, hg⟩ | ⟨hf, hg⟩
    · cases hfa : f a with
      | none => simpa [hf, hg, hfa] using hrest
      | some b => simpa [hf, hg, hfa] using hrest
    · cases hga : g a with
      | none => simpa [hf, hg, hga] using hrest
      | some b => simpa [hf, hg, hga] using (hrest.cons b).trans List.perm_middle.symm

theorem map_filter_eq_filterMap {α β : Type} (p : α → Prop) [DecidablePred p] (f : α → β)
    (l : List α) : (l.filter p).map f = l.filterMap fun a => if p a then some (f a) else none := by
  induction l with
  | nil => rfl
  | cons a l ih => by_cases h : p a <;> simp [h, ih]

def Verdict.reactions (r : Reactions Action) : Verdict → List Continuation
  | .ok _ => World.onResult r
  | .error _ => World.onError r

theorem isCallback_onResult {r : Reactions Action}
    (h : ∀ c ∈ r.callbacks, ∀ a ∈ c.script, a.isPassive) :
    ∀ q ∈ World.onResult r, q.IsCallback .result := by
  intro q hq
  obtain ⟨c, hc, rfl⟩ := List.mem_map.1 hq
  exact ⟨c, rfl, h c (List.mem_append_left _ hc)⟩

theorem isCallback_onError {r : Reactions Action}
    (h : ∀ c ∈ r.callbacks, ∀ a ∈ c.script, a.isPassive) :
    ∀ q ∈ World.onError r, q.IsCallback .error := by
  intro q hq
  obtain ⟨c, hc, rfl⟩ := List.mem_map.1 hq
  exact ⟨c, rfl, h c (List.mem_append_right _ hc)⟩

/-- Of what was registered for a call the callbacks for a verdict are those that the call has for
it. -/
theorem Verdict.labels_registrations (v : Verdict) (id : Nat) (r : Reactions Action) :
    (((r.registrations id).filter fun r => r.id = id ∧ r.kind = v.kind).map Registration.label) =
      (v.reactions r).filterMap Continuation.label? := by
  obtain ⟨_ | c, _ | d⟩ := r <;> cases v <;>
    simp [Reactions.registrations, Verdict.reactions, Verdict.kind, World.onResult, World.onError,
      World.hostContinuation, Continuation.label?]

theorem Reactions.id_registrations {id : Nat} {r : Reactions Action} {q : Registration}
    (hq : q ∈ r.registrations id) : q.id = id := by
  simp only [registrations, List.mem_append, List.mem_map] at hq
  rcases hq with ⟨c, -, rfl⟩ | ⟨c, -, rfl⟩ <;> rfl

namespace Tally

/-- Callbacks that are registered for a call come behind the ones it has. -/
theorem labels_register_self (t : Tally) (id : Nat) (r : Reactions Action) (v : Verdict) :
    (t.register id r).labels id v.kind =
      t.labels id v.kind ++ (v.reactions r).filterMap Continuation.label? := by
  rw [← v.labels_registrations id, labels, register, List.filter_append, List.map_append, labels]

/-- Callbacks that are registered for a call are none of another. -/
theorem labels_register_of_ne {t : Tally} {id i : Nat} (h : i ≠ id) (r : Reactions Action)
    (kind : CallbackKind) : (t.register id r).labels i kind = t.labels i kind := by
  have hnone : (r.registrations id).filter (fun q => q.id = i ∧ q.kind = kind) = [] := by
    refine List.filter_eq_nil_iff.2 fun q hq => ?_
    simp [Reactions.id_registrations hq, Ne.symm h]
  rw [labels, register, List.filter_append, hnone, List.append_nil, labels]

/-- Nothing is registered for a call that was not made yet. -/
theorem labels_of_lt {t : Tally} {id : Nat} (h : ∀ r ∈ t.registrations, r.id < id)
    (kind : CallbackKind) : t.labels id kind = [] := by
  simp only [labels, List.map_eq_nil_iff, List.filter_eq_nil_iff, decide_eq_true_eq]
  exact fun r hr he => Nat.ne_of_lt (h r hr) he.1

end Tally

namespace Client

variable {c c' : Client} {id : Nat} {f : Call → Call}

/-- A call that is not pending any more leaves the list of those that are. -/
theorem pendingIds_map {l : List Call} (hend : ∀ call, (f call).isPending = false) :
    (((l.map fun k => if k.id = id then f k else k).filter Call.isPending).map Call.id) =
      ((l.filter Call.isPending).map Call.id).filter (· != id) := by
  induction l with
  | nil => rfl
  | cons k l ih =>
    by_cases hk : k.id = id
    · by_cases hp : k.isPending <;> simp [hk, hend, hp, ih]
    · by_cases hp : k.isPending <;> simp [hk, hp, ih]

/-- A change that leaves a call its identifier and as pending as it was. -/
theorem pendingIds_map_of_eq {l : List Call} {g : Call → Call} (hid : ∀ call, (g call).id = call.id)
    (hp : ∀ call, (g call).isPending = call.isPending) :
    ((l.map g).filter Call.isPending).map Call.id = (l.filter Call.isPending).map Call.id := by
  rw [List.filter_map, List.map_map]
  have hp' : Call.isPending ∘ g = Call.isPending := funext hp
  have hid' : Call.id ∘ g = Call.id := funext hid
  rw [hp', hid']

theorem mem_updateCall {k : Call} (h : k ∈ (c.updateCall id f).calls) :
    (∃ k₀ ∈ c.calls, k₀.id = id ∧ k = f k₀) ∨ k ∈ c.calls ∧ k.id ≠ id := by
  obtain ⟨k₀, hk₀, rfl⟩ := List.mem_map.1 h
  split
  · next hid => exact Or.inl ⟨k₀, hk₀, hid, rfl⟩
  · next hid => exact Or.inr ⟨hk₀, hid⟩

/-- The calls are numbered from one without gaps. -/
theorem Ledger.call?_eq_none (h : c.Ledger) (id : Nat) :
    c.call? id = none ↔ ¬ (0 < id ∧ id ≤ c.calls.length) := by
  have hmem : (0 < id ∧ id ≤ c.calls.length) ↔ id ∈ c.calls.map Call.id := by
    rw [h.ids, List.mem_range'_1]
    omega
  rw [hmem]
  simp [call?]

theorem find?_dropPending_self (id : Nat) (c : Client) :
    ((c.dropPending id).pending.find? fun q => q.id = id) = none := by
  simpa using fun p (hp : p ∈ (c.dropPending id).pending) => ne_of_mem_dropPending hp

theorem find?_dropPending_of_ne {i : Nat} (h : i ≠ id) :
    ((c.dropPending id).pending.find? fun q => q.id = i) = c.pending.find? fun q => q.id = i := by
  rw [dropPending, List.find?_filter]
  congr 1
  funext q
  by_cases hq : q.id = i <;> simp [hq, h]

theorem Ledger.congr (h : c.Ledger) (calls : c'.calls = c.calls)
    (pending : c'.pending = c.pending) : c'.Ledger := by
  refine ⟨by rw [calls, h.ids], fun p hp => ?_, ?_⟩
  · simpa only [call?, calls] using h.waiting p (pending ▸ hp)
  · simpa only [pendingIds, pending] using h.ordered

theorem heard?_congr (calls : c'.calls = c.calls) : c'.heard? = c.heard? := by
  funext r
  simp only [heard?, call?, calls]

/-- A callback has heard nothing while its call waits. -/
theorem heard?_of_pending {r : Registration} {call : Call} (hc : c.call? r.id = some call)
    (hp : call.status = .pending) : c.heard? r = none := by
  simp [heard?, hc, Call.verdict?, hp]

/-- What becomes of one call is not heard by the callbacks of another. -/
theorem heard?_of_ne (hid : ∀ call, (f call).id = call.id) {r : Registration} (h : r.id ≠ id) :
    (c.updateCall id f).heard? r = c.heard? r := by
  rw [heard?, call?_updateCall hid, if_neg h, heard?]

theorem heard?_addCall {call : Call} (t : Treatment) {r : Registration} (h : r.id ≠ call.id) :
    (c.addCall call t).heard? r = c.heard? r := by
  rw [heard?, call?_addCall, if_neg (Ne.symm h), Option.or_none, heard?]

/-- A change of a call that does not concern its outcome. -/
theorem heard?_updateCall (hid : ∀ call, (f call).id = call.id)
    (hf : ∀ call, (f call).outcome = call.outcome) : (c.updateCall id f).heard? = c.heard? := by
  funext r
  by_cases h : r.id = id
  · have hv : ∀ call, (f call).verdict? = call.verdict? := by
      intro call
      have he := hf call
      simp only [Call.outcome, Prod.mk.injEq] at he
      rw [Call.verdict?, he.1, he.2.1, he.2.2, Call.verdict?]
    rw [heard?, call?_updateCall hid, if_pos h, heard?]
    cases c.call? r.id with
    | none => rfl
    | some call => simp [hv]
  · exact heard?_of_ne hid h

/-- What the callbacks that are registered last are told where the call has settled. -/
theorem heard?_registrations {call : Call} (hc : c.call? id = some call) {v : Verdict}
    (hv : call.verdict? = some v) (r : Reactions Action) : (r.registrations id).filterMap c.heard? =
      ((v.reactions r).filterMap Continuation.label?).map v.told := by
  rw [← v.labels_registrations id, List.map_map, map_filter_eq_filterMap]
  refine List.filterMap_congr fun q hq => ?_
  have hid := Reactions.id_registrations hq
  simp [heard?, hid, hc, hv, eq_comm]

theorem heard?_registrations_none {call : Call} (hc : c.call? id = some call)
    (hv : call.verdict? = none) (r : Reactions Action) :
    (r.registrations id).filterMap c.heard? = [] := by
  refine List.filterMap_eq_nil_iff.2 fun q hq => ?_
  simp [heard?, Reactions.id_registrations hq, hc, hv]

end Client

theorem Call.verdict?_settle (v : Verdict) (c : Call) : (c.settle v).verdict? = some v := by
  cases v <;> rfl

/-- What a call has settled with hangs on nothing but its verdict. -/
theorem Call.outcome_settle (v : Verdict) {c c' : Call} (h : c.outcome = c'.outcome) :
    (c.settle v).outcome = (c'.settle v).outcome := by
  simp only [Call.outcome, Prod.mk.injEq] at h
  cases v with
  | ok r => simp [Call.settle, Call.fulfil, Call.outcome, h.2.2]
  | error f => simp [Call.settle, Call.reject, Call.outcome, h.2.1]

end GhostText
