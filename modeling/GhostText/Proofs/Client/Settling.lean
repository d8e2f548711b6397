import GhostText.Proofs.Client.Passing

/-!
# How a call settles

A response settles the call that waits under its identifier, with a result or with an error, and
then those who wait for it are told. Where their scripts concern no calls, that is all that happens
to the calls.
-/

namespace GhostText

namespace Verdict

def kind : Verdict → CallbackKind
  | .ok _ => .result
  | .error _ => .error

def outcome : Verdict → Outcome
  | .ok r => .reply r
  | .error f => .fault f

def told (v : Verdict) (label : String) : String × CallbackKind × Outcome :=
  (label, v.kind, v.outcome)

end Verdict

/-- A result that is read as completions never settles a call as a bare value. -/
theorem Treatment.verdict_completions_ne (result : Json) (error : Option ResponseError)
    (value : Json) : Treatment.completions.verdict result error ≠ .ok (.value value) := by
  cases error with
  | some e => nofun
  | none =>
    dsimp only [verdict]
    cases CompletionResult.ofJson result <;> nofun

/-! ## Callbacks -/

namespace Continuation

/-- A callback of the host whose script concerns no calls. -/
def IsCallback (kind : CallbackKind) (q : Continuation) : Prop :=
  ∃ c : Callback Action, q = .reaction (.host kind c) ∧ ∀ a ∈ c.script, a.isPassive

def label? : Continuation → Option String
  | .reaction (.host _ c) => some c.label
  | _ => none

end Continuation

structure Call.Plain (c : Call) : Prop where
  onResult : ∀ q ∈ c.onResult, q.IsCallback .result
  onError : ∀ q ∈ c.onError, q.IsCallback .error

theorem Call.Plain.waiting {c : Call} (h : c.Plain) (v : Verdict) :
    ∀ q ∈ v.waiting c, q.IsCallback v.kind := by
  cases v with
  | ok r => exact h.onResult
  | error f => exact h.onError

namespace World

variable {w w' : World} {run : Runner} {v : Verdict}

/-- A callback of the host is told the outcome that the verdict gives. -/
theorem continueWith_host (v : Verdict) (c : Callback Action) :
    v.continueWith run (.reaction (.host v.kind c)) = callHost run v.kind c v.outcome := by
  cases v <;> rfl

/-- A callback is told once, and its script calls nobody back. -/
theorem callsBack_callHost (hr : run.Passive) {c : Callback Action}
    (hc : ∀ a ∈ c.script, a.isPassive) (h : w.transport.answers = []) (kind : CallbackKind)
    (o : Outcome) : w.CallsBack (w.callBack (callHost run kind c o)) [(c.label, kind, o)] := by
  have hrecord : w.CallsBack (w.record (.calledBack c.label kind o)) [(c.label, kind, o)] :=
    ⟨rfl, rfl, rfl, rfl, rfl, by simp [callbacks, record, Event.callback?]⟩
  have hran := hrecord.passes (hr none c.script hc _ h)
  unfold callBack callHost
  generalize run (.script none c.script) _ = r at hran ⊢
  obtain ⟨_ | _, w₁⟩ := r
  · exact hran.passes (passes_clientLog ..)
  · exact hran

/-- The callbacks that wait for a verdict are told it, one after the other. -/
theorem callsBack_foldl (hr : run.Passive) {qs : List Continuation}
    (hq : ∀ q ∈ qs, q.IsCallback v.kind) (h : w.transport.answers = []) :
    w.CallsBack (qs.foldl (fun w q => w.callBack (v.continueWith run q)) w)
      ((qs.filterMap Continuation.label?).map v.told) := by
  induction qs generalizing w with
  | nil => exact Passes.refl w
  | cons q qs ih =>
    obtain ⟨c, rfl, hc⟩ := hq q List.mem_cons_self
    have hfirst := callsBack_callHost hr hc h v.kind v.outcome
    rw [← continueWith_host] at hfirst
    exact hfirst.trans
      (ih (fun q h => hq q (List.mem_cons_of_mem _ h)) (hfirst.transport ▸ h))

/-! ## Settling -/

/-- All callbacks of a call are told its outcome when it settles, in the order in which they were
registered. -/
theorem callsBack_settleBy (hr : run.Passive) {id : Nat} {c : Call}
    (hc : w.client.call? id = some c) (hp : c.status = .pending) (plain : c.Plain)
    (h : w.transport.answers = []) :
    (w.updateClient fun k => k.updateCall id (Call.settle v)).CallsBack (settleBy run id v w)
      (((v.waiting c).filterMap Continuation.label?).map v.told) := by
  rw [settleBy, settleCall, hc]
  simp only [hp, ne_eq, not_true_eq_false, if_false]
  exact callsBack_foldl (w := w.updateClient fun k => k.updateCall id (Call.settle v)) hr
    (plain.waiting v) h

/-- A change of the calls after what concerns none of them. -/
theorem Passes.updateClient (h : w.Passes w') {f : Client → Client}
    (hcalls : (f w'.client).calls = (f w.client).calls)
    (hpending : (f w'.client).pending = (f w.client).pending)
    (hhandlers : (f w'.client).handlers = (f w.client).handlers) :
    (w.updateClient f).Passes (w'.updateClient f) :=
  ⟨hcalls, hpending, hhandlers, h.transport, h.subscriptions, h.told⟩

theorem Passes.updateCall (h : w.Passes w') (id : Nat) (f : Call → Call) :
    (w.updateClient fun k => k.updateCall id f).Passes
      (w'.updateClient fun k => k.updateCall id f) :=
  h.updateClient (by simp only [Client.updateCall, h.calls]) h.pending h.handlers

/-! ## Responses -/

/-- A response to a waiting call settles it with the verdict that its treatment gives. -/
theorem handleResponse_eq (run : Runner) (hw : w.Quiet) {id : Json} {p : PendingCall}
    (hp : w.client.pendingFor? id = some p) (result : Json) (error : Option ResponseError) :
    ∃ w₁, (w.updateClient fun c => c.dropPending p.id).Passes w₁ ∧
      handleResponse run id result error w =
        settleBy run p.id (p.treatment.verdict result error) w₁ := by
  obtain ⟨w₁, he, ⟨w₀, asides, rfl⟩ | ⟨-, rfl⟩⟩ := handleResponse_of_some run hp result error
  · obtain ⟨es, rfl, asides⟩ := asides
    exact ⟨_, AddsAsides.passes ⟨es, rfl, asides⟩, he⟩
  · exact ⟨_, passes_changeStatus (w := w.updateClient _) hw.subscriptions _, he⟩

theorem passes_logTraffic (direction arrow : String) (payload : Json) (w : World) :
    w.Passes (w.logTraffic direction arrow payload) :=
  (addsAsides_logTraffic ..).passes

/-- A body settles the call that waits for it; else it concerns no call. -/
theorem dispatch_cases (hr : run.Passive) (hw : w.Quiet) (b : Frame.Body) :
    ((∀ p ∈ w.client.pending, b.responseTo? p.id = none) ∧ w.Passes (dispatch run w b)) ∨
      ∃ p ∈ w.client.pending, ∃ result error w₁, b.responseTo? p.id = some (result, error) ∧
        (w.updateClient fun c => c.dropPending p.id).Passes w₁ ∧
        (settleBy run p.id (p.treatment.verdict result error) w₁).Passes (dispatch run w b) := by
  cases b with
  | malformed raw e => exact Or.inl ⟨fun _ _ => rfl, passes_clientLog ..⟩
  | value v =>
    cases hm : Message.classify v with
    | error violation =>
      refine Or.inl ⟨fun p _ => by simp [Frame.Body.responseTo?, hm], ?_⟩
      rw [dispatch, hm]
      exact passes_clientLog ..
    | ok m =>
      rw [dispatch_of_classify run hm]
      cases m with
      | request id method params =>
        refine Or.inl ⟨fun p _ => by simp [Frame.Body.responseTo?, hm], ?_⟩
        have hopen := (replies_openContext method id true w).passes
        exact Passes.trans hopen (Passes.trans
          (passes_handleRequest hr (hopen.quiet hw) ..) (replies_logIncoming ..).passes)
      | notification method params =>
        refine Or.inl ⟨fun p _ => by simp [Frame.Body.responseTo?, hm], ?_⟩
        have hopen := (replies_openContext method .null false w).passes
        exact Passes.trans hopen (Passes.trans
          (passes_handleNotification hr (hopen.quiet hw) ..) (replies_logIncoming ..).passes)
      | response id result error =>
        have hlog := passes_logTraffic "in" "<--" v (handleResponse run id result error w)
        cases hp : w.client.pendingFor? id with
        | none =>
          refine Or.inl ⟨fun p hmem => ?_,
            Passes.trans (handleResponse_of_none run hp ..).passes hlog⟩
          cases id with
          | int n =>
            have hne : ¬ (p.id : Int) = n := by simpa using List.find?_eq_none.1 hp p hmem
            simpa [Frame.Body.responseTo?, hm] using fun he => hne he.symm
          | _ => simp [Frame.Body.responseTo?, hm]
        | some p =>
          cases id with
          | int n =>
            have hmem := List.mem_of_find?_eq_some hp
            have hid : (p.id : Int) = n := by simpa using List.find?_some hp
            obtain ⟨w₁, hw₁, he⟩ := handleResponse_eq run hw hp result error
            refine Or.inr ⟨p, hmem, result, error, w₁, ?_, hw₁, he ▸ hlog⟩
            simp [Frame.Body.responseTo?, hm, hid]
          | _ => cases hp

end World

end GhostText
