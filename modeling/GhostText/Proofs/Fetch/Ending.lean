import GhostText.Proofs.Client.Cancelling
import GhostText.Proofs.Fetch.Reading
import GhostText.Proofs.Sync.Delivery

/-!
# How a fetch ends

The answer to the request of a fetch settles its call. Then the fetch leaves the table, the others
are told if there is no activity any more, and at most one completion is handed on. A callback that
takes the completions of one fetch, and is registered for nothing else, is told of one at most,
whatever scripts do meanwhile.
-/

namespace GhostText

/-- Where the request of a fetch succeeds, its result is read as completions. -/
theorem Treatment.completions_of_verdict {result : Json} {error : Option ResponseError}
    {reply : Reply} (h : Treatment.completions.verdict result error = .ok reply) :
    ∃ r, reply = .completions r ∧ CompletionResult.ofJson result = .ok r := by
  cases error with
  | some e => cases h
  | none =>
    simp only [Treatment.verdict] at h
    cases hread : CompletionResult.ofJson result with
    | error f => simp [hread, Except.map] at h
    | ok r =>
      simp only [hread, Except.map, Except.ok.injEq] at h
      exact ⟨r, h.symm, rfl⟩

namespace World

variable {k : Regime} {run : Runner} {w w' : World} {task : Nat} {sink : CompletionSink}
  {v : Verdict}

/-! ## The end of a fetch -/

/-- The server is told which completions are turned down, if there are any. -/
def turnDown (uuids : List String) (w : World) : World :=
  if uuids.isEmpty then w else w.notifyRejected uuids

/-- How a fetch whose call has settled comes to its end. It leaves the table, it may be told that
there is no activity any more, and then at most one completion is handed on. -/
inductive FetchEnds (run : Runner) (task : Nat) (sink : CompletionSink) (w : World) :
    Verdict → World → Prop where
  /-- Nothing comes of a request that has failed. -/
  | failed {f : Fault} {w₁ : World} (noted : (w.removeFetch task).2.AddsAsides w₁) :
      FetchEnds run task sink w (.error f) (reportIfIdle run w₁)
  /-- All that comes for a fetch that was given up is turned down. -/
  | givenUp {r : CompletionResult} (cancelled : (w.removeFetch task).1 = true) :
      FetchEnds run task sink w (.ok (.completions r))
        ((reportIfIdle run (w.removeFetch task).2).turnDown (r.completions.map Completion.uuid))
  /-- The server has found nothing, or it has cancelled the request. -/
  | empty {r : CompletionResult} (wanted : (w.removeFetch task).1 = false)
      (nothing : r.cancellationReason.isSome = true ∨ r.completions = []) :
      FetchEnds run task sink w (.ok (.completions r)) (reportIfIdle run (w.removeFetch task).2)
  /-- The first completion is handed on, and the others are turned down. -/
  | handed {r : CompletionResult} {first : Completion} {rest : List Completion}
      (wanted : (w.removeFetch task).1 = false) (kept : r.cancellationReason = none)
      (brought : r.completions = first :: rest) :
      FetchEnds run task sink w (.ok (.completions r))
        (((reportIfIdle run (w.removeFetch task).2).turnDown (rest.map Completion.uuid)).callBack
          (deliverCompletion run first sink))

theorem fetchEnds_ending (run : Runner) (task : Nat) (sink : CompletionSink) (w : World)
    (hv : ∀ value, v ≠ .ok (.value value)) :
    w.FetchEnds run task sink v (w.callBack (v.continueWith run (v.ending task sink))) := by
  cases v with
  | error f => exact .failed (addsAsides_log ..)
  | ok r =>
    cases r with
    | value value => exact absurd rfl (hv value)
    | completions r =>
      have hanswered : w.callBack (Verdict.continueWith run (.ok (.completions r))
          (Verdict.ending task sink (.ok (.completions r)))) =
          w.callBack (fetchAnswered run task r sink) := rfl
      rw [hanswered]
      unfold callBack fetchAnswered
      cases hc : (w.removeFetch task).1 with
      | true =>
        simp only [hc, if_true]
        exact .givenUp hc
      | false =>
        simp only [hc, Bool.false_eq_true, if_false]
        cases hreason : r.cancellationReason with
        | some reason => exact .empty hc (.inl (by rw [hreason]; rfl))
        | none =>
          cases hbrought : r.completions with
          | nil => exact .empty hc (.inr hbrought)
          | cons first rest =>
            have hhanded : w.FetchEnds run task sink (.ok (.completions r))
                (((reportIfIdle run (w.removeFetch task).2).turnDown
                  (rest.map Completion.uuid)).callBack (deliverCompletion run first sink)) :=
              .handed hc hreason hbrought
            unfold turnDown callBack at hhanded
            rwa [List.isEmpty_map] at hhanded

/-- To turn completions down is a step in which the server is told. -/
theorem leads_turnDown (he : k.engages) (uuids : List String) (w : World) :
    Leads k w (w.turnDown uuids) := by
  unfold turnDown
  split
  · exact .refl w
  · exact leads_report rfl he ..

/-- What a fetch comes to once it is off the table it comes to by steps. -/
theorem FetchEnds.leads (h : w.FetchEnds run task sink v w') (hr : run.Steady k)
    (hreads : k.reads) (hs : k.Sound w) {id : Nat} (awaits : k.Awaits id (.fetched task sink))
    (hset : w.Settled id) : Leads k (w.removeFetch task).2 w' := by
  have hidle := leads_reportIfIdle hr (w.removeFetch task).2
  cases h with
  | failed noted => exact noted.leads.trans (leads_reportIfIdle hr _)
  | givenUp _ => exact hidle.trans (leads_turnDown hreads.2 ..)
  | empty _ _ => exact hidle
  | @handed r first rest _ _ _ =>
    have hdown := hidle.trans (leads_turnDown hreads.2 (rest.map Completion.uuid) _)
    have hsound := ((leads_removeFetch hreads.1 task w).steps hs).sound hs
    exact hdown.trans (leads_callBack (leads_deliverCompletion hr hreads _ awaits
      ((hdown.steps hsound).settled hsound hset)))

/-- An answer is taken. Some records aside the call settles, then the fetch comes to its end, and
then the others are told who wait for the call. -/
def TakesAnswer (run : Runner) (p : PendingCall) (call : Call) (task : Nat) (sink : CompletionSink)
    (v : Verdict) (w w' : World) : Prop :=
  ∃ (w₁ w₂ : World) (others : List Continuation), w.AddsAsides w₁ ∧
    (w₁.answered p v).FetchEnds run task sink v w₂ ∧
    v.waiting call = v.ending task sink :: others ∧ (∀ q ∈ others, q.isOfFetch = false) ∧
    (others.foldl (fun w q => w.callBack (v.continueWith run q)) w₂).AddsAsides w'

section Answering

variable {p : PendingCall} {call : Call} (hp : p ∈ w.client.pending)
  (hc : w.client.call? p.id = some call)

include hp hc

/-- The response to a fetch is taken by the call that waits for it. -/
theorem dispatch_takesAnswer (run : Runner) (hl : w.client.Ledger) (hends : call.Ends task sink)
    (ht : p.treatment = .completions) {value result : Json} {error : Option ResponseError}
    (hm : Message.classify value = .ok (.response (.int p.id) result error)) :
    w.TakesAnswer run p call task sink (p.treatment.verdict result error)
      (dispatch run w (.value value)) := by
  obtain ⟨w₁, hasides, hresponse⟩ :=
    handleResponse_completions run (hl.pendingFor?_eq hp) ht result error
  obtain ⟨others, hothers, plain⟩ := hends.waiting (p.treatment.verdict result error)
  have hv : ∀ v, p.treatment.verdict result error ≠ .ok (.value v) :=
    ht ▸ Treatment.verdict_completions_ne result error
  refine ⟨w₁, _, others, hasides, fetchEnds_ending run task sink _ hv, hothers, plain, ?_⟩
  rw [dispatch_response run hm, hresponse, settleBy_answered run hl hp hc hasides, hothers]
  exact addsAsides_logTraffic ..

/-- All that happens once the call has settled and the fetch is off the table happens by steps. -/
theorem TakesAnswer.leads (h : w.TakesAnswer run p call task sink v w') (hr : run.Steady k)
    (hreads : k.reads) (hs : k.Sound w) (hends : call.Ends task sink) :
    ∃ w₁, w.AddsAsides w₁ ∧ Leads k ((w₁.answered p v).removeFetch task).2 w' := by
  obtain ⟨w₁, w₂, others, hasides, hfetch, hothers, plain, hlogged⟩ := h
  refine ⟨w₁, hasides, ?_⟩
  have hc₁ : w₁.client.call? p.id = some call := by
    obtain ⟨es, he, -⟩ := hasides
    rw [he]
    exact hc
  have hsettled := settled_answered hc₁ v
  have hsound := ((leads_answered hp hasides v).steps hs).sound hs
  have hremoved := ((leads_removeFetch hreads.1 task (w₁.answered p v)).steps hsound).sound hsound
  -- whatever waits for the call may wait for it
  have hawaits : k.AwaitsAll p.id (call.onResult ++ call.onError) :=
    Client.call?_eq_some_id hc ▸ hs.bound.calls call (Client.mem_of_call? hc)
  have hended := hfetch.leads hr hreads hsound (hawaits _ hends.mem) hsettled
  refine hended.trans (Leads.trans (leads_told hr (fun q hq => hawaits q ?_) plain v ?_)
    hlogged.leads)
  · exact Verdict.mem_of_waiting (hothers ▸ List.mem_cons_of_mem _ hq)
  · exact (hended.steps hremoved).settled hremoved hsettled

end Answering

/-- Where nobody else hears of it, nothing is sent or shown for a request that fails. -/
theorem TakesAnswer.sends_nothing {p : PendingCall} {call : Call} {f : Fault}
    (h : w.TakesAnswer run p call task sink (.error f) w')
    (alone : call.onError = [.fetchFailed task]) (hw : w.Unwatched) : w.Sends w' [] := by
  obtain ⟨w₁, w₂, others, hasides, hfetch, hothers, -, hlogged⟩ := h
  obtain rfl : others = [] := by
    have herror : call.onError = .fetchFailed task :: others := hothers
    simpa [alone] using herror
  cases hfetch with
  | @failed _ w₃ noted =>
    have hanswered : w₁.Sends (w₁.answered p (.error f)) [] :=
      ⟨⟨rfl, rfl, rfl, rfl, rfl⟩, (List.append_nil _).symm, rfl, by simp [answered, updateClient],
        id⟩
    have hremoved : ∀ w : World, w.Sends (w.removeFetch task).2 [] := fun w =>
      ⟨⟨rfl, rfl, rfl, rfl, rfl⟩, (List.append_nil _).symm, rfl, rfl, fun ht =>
        ⟨ht.workspaceFolder, ht.activeFile, ht.tabSize⟩⟩
    have hfailed := hasides.sends.trans (hanswered.trans ((hremoved _).trans noted.sends))
    have hidle : w₃.Sends (reportIfIdle run w₃) [] := by
      unfold reportIfIdle
      split
      · exact sends_changeStatus run (hfailed.unwatched hw) _
      · exact .refl w₃
    exact hfailed.trans (hidle.trans hlogged.sends)

end World

/-! ## Who takes the completions of a fetch is told of one at most -/

/-- A host that registers nothing under a label. -/
def Conduct.without (label : String) : Conduct := ⟨fun _ => True, fun _ l => l ≠ label⟩

def World.toldTo (label : String) (w : World) : List (String × CallbackKind × Outcome) :=
  w.callbacks.filter fun x => x.1 = label

/-- Where nothing is registered under a label nothing is told under it. -/
theorem Steps.toldTo {label : String} {w w' : World}
    (h : Steps (Conduct.without label).free w w') : w'.toldTo label = w.toldTo label := by
  induction h with
  | refl => rfl
  | tail _ step ih =>
    obtain ⟨es, he, hes⟩ := step.events
    have hnone : (es.filterMap Event.callback?).filter (fun x => x.1 = label) = [] := by
      refine List.filter_eq_nil_iff.2 fun x hx => ?_
      obtain ⟨e, hm, hx⟩ := List.mem_filterMap.1 hx
      cases e with
      | calledBack l kind o =>
        cases hx
        obtain ⟨id, hwaits, -⟩ := hes l kind o hm
        have hother : l ≠ label := hwaits
        simpa using hother
      | _ => cases hx
    rw [← ih, World.toldTo, World.callbacks, he, List.filterMap_append, List.filter_append, hnone,
      List.append_nil]
    rfl

def Call.unfetched (c : Call) : Call := { c with onResult := c.onResult.tail }

namespace World

/-- Nothing that is kept of the host is registered under a label, but for the end of a fetch. -/
def Reserves (w : World) (id : Nat) (label : String) : Prop :=
  (Conduct.without label).Bound (w.updateClient fun c => c.updateCall id Call.unfetched)

/-- Nothing is told under a label meanwhile, or once a completion that comes with a verdict. -/
inductive TellsOnce (label : String) (v : Verdict) (w w' : World) : Prop where
  | never (steps : Steps (Conduct.without label).free w w')
  | once {u : World} {r : CompletionResult} {completion : Completion}
      (before : Steps (Conduct.without label).free w u) (brought : v = .ok (.completions r))
      (mem : completion ∈ r.completions) (after : Steps (Conduct.without label).free
        (u.record (.calledBack label .completion (.completion completion))) w')

variable {label : String} {v : Verdict} {w w' w'' : World}

namespace TellsOnce

theorem steps (h : TellsOnce label v w w') (h' : Steps (Conduct.without label).free w' w'') :
    TellsOnce label v w w'' := by
  cases h with
  | never steps => exact .never (steps.trans h')
  | once before brought mem after => exact .once before brought mem (after.trans h')

/-- What the callback with the label was told then. -/
theorem toldTo (h : TellsOnce label v w w') : ∃ told : Option Completion,
    w'.toldTo label = w.toldTo label ++
      (told.map fun completion => (label, .completion, .completion completion)).toList ∧
    ∀ completion ∈ told, ∃ r, v = .ok (.completions r) ∧ completion ∈ r.completions := by
  cases h with
  | never steps => exact ⟨none, by rw [Steps.toldTo steps]; simp, nofun⟩
  | @once u r completion before brought mem after =>
    refine ⟨some completion, ?_, ?_⟩
    · rw [Steps.toldTo after, ← Steps.toldTo before]
      simp [World.toldTo, callbacks, record, Event.callback?]
    · rintro _ ⟨⟩
      exact ⟨r, brought, mem⟩

variable (hs : (Conduct.without label).free.Sound w)

include hs

theorem sound (h : TellsOnce label v w w') : (Conduct.without label).free.Sound w' := by
  cases h with
  | never steps => exact Steps.sound steps hs
  | once before _ _ after =>
    exact Steps.sound after ((Steps.sound before hs).congr rfl rfl rfl)

/-- A call that has settled stays settled. -/
theorem settled (h : TellsOnce label v w w') {id : Nat} (hid : w.Settled id) : w'.Settled id := by
  cases h with
  | never steps => exact Steps.settled steps hs hid
  | once before _ _ after =>
    exact Steps.settled after ((Steps.sound before hs).congr rfl rfl rfl)
      (Steps.settled before hs hid)

end TellsOnce

variable {run : Runner} {p : PendingCall} {call : Call} {task : Nat} {c : Callback Action}

/-- A label that one call has reserved is no other callback's, so the run stays sound without it. -/
theorem Reserves.sound (h : w.Reserves p.id label) (hl : w.client.Ledger)
    (v : Verdict) {w₁ : World} (hasides : w.AddsAsides w₁) :
    (Conduct.without label).free.Sound (w₁.answered p v) := by
  have hledger := hl.endCall v.settling.id p.id
  obtain ⟨es, rfl, -⟩ := hasides
  refine ⟨⟨fun call' hm => ?_, h.handlers, h.subscribers⟩, hledger, fun _ => .inr trivial,
    .inr ⟨trivial, trivial⟩⟩
  obtain ⟨call, hcall, rfl⟩ := List.mem_map.1 hm
  split
  · simp [Conduct.AwaitsAll, v.settling.onResult, v.settling.onError]
  · next hid => exact h.calls call (List.mem_map.2 ⟨call, hcall, if_neg hid⟩)

/-- The others who wait for the call are told under other labels. -/
theorem Reserves.awaits (h : w.Reserves p.id label)
    (hc : w.client.call? p.id = some call) {others : List Continuation}
    (hothers : v.waiting call = v.ending task (.host c) :: others) :
    (Conduct.without label).AwaitsAll p.id others := by
  have hid := Client.call?_eq_some_id hc
  have hcall := h.calls call.unfetched
    (List.mem_map.2 ⟨call, Client.mem_of_call? hc, if_pos hid⟩)
  rw [show call.unfetched.id = p.id from hid] at hcall
  intro q hq
  refine hcall q ?_
  cases v with
  | ok r =>
    have hres : call.onResult = .fetched task (.host c) :: others := hothers
    exact List.mem_append_left _ (by rwa [Call.unfetched, hres])
  | error f =>
    have herr : call.onError = .fetchFailed task :: others := hothers
    exact List.mem_append_right _ (by simp [Call.unfetched, herr, hq])

/-- A callback that was noted has its script run by steps. -/
theorem leads_script {k : Regime} (hr : run.Steady k) (script : k.AllowsAll c.script)
    (kind : CallbackKind) (o : Outcome) (w : World) :
    Leads k (w.record (.calledBack c.label kind o)) (w.callBack (callHost run kind c o)) :=
  (hr.leads (.script none c.script) _ script).trans
    (addsAsides_callBack (callHost run kind c o) w).leads

/-- Where only the end of the fetch is registered under a label, a completion is told under it when
the fetch ends, or never. -/
theorem FetchEnds.tellsOnce (h : w.FetchEnds run task (.host c) v w')
    (hr : run.Steady (Conduct.without c.label).free)
    (hs : (Conduct.without c.label).free.Sound w)
    (script : (Conduct.without c.label).AllowsAll c.script) : TellsOnce c.label v w w' := by
  have hreads : (Conduct.without c.label).free.reads := ⟨trivial, trivial⟩
  have hremove := leads_removeFetch hreads.1 task w
  have hidle := hremove.trans (leads_reportIfIdle hr _)
  cases h with
  | failed noted =>
    exact .never ((hremove.trans (noted.leads.trans (leads_reportIfIdle hr _))).steps hs)
  | givenUp _ => exact .never ((hidle.trans (leads_turnDown hreads.2 ..)).steps hs)
  | empty _ _ => exact .never (hidle.steps hs)
  | @handed r first rest _ _ brought =>
    have hdown := (hidle.trans (leads_turnDown hreads.2 (rest.map Completion.uuid) _)).steps hs
    have hran := leads_script hr script .completion (.completion first)
      ((reportIfIdle run (w.removeFetch task).2).turnDown (rest.map Completion.uuid))
    exact .once hdown rfl (brought ▸ List.mem_cons_self)
      (hran.steps ((Steps.sound hdown hs).congr rfl rfl rfl))

/-- The callback of a fetch is told of the first completion when the answer is taken, and never
again. -/
theorem TakesAnswer.toldTo (h : w.TakesAnswer run p call task (.host c) v w')
    (hr : run.Steady (Conduct.without c.label).free) (hl : w.client.Ledger)
    (hc : w.client.call? p.id = some call) (reserved : w.Reserves p.id c.label)
    (script : (Conduct.without c.label).AllowsAll c.script)
    (later : Steps (Conduct.without c.label).free w' w'') : ∃ told : Option Completion,
      w''.toldTo c.label = w.toldTo c.label ++
        (told.map fun completion => (c.label, .completion, .completion completion)).toList ∧
      ∀ completion ∈ told, ∃ r, v = .ok (.completions r) ∧ completion ∈ r.completions := by
  obtain ⟨w₁, w₂, others, hasides, hfetch, hothers, plain, hlogged⟩ := h
  have hsound := reserved.sound hl v hasides
  have hended := hfetch.tellsOnce hr hsound script
  have hc₁ : w₁.client.call? p.id = some call := by
    obtain ⟨es, he, -⟩ := hasides
    rw [he]
    exact hc
  have hrest := (leads_told hr (reserved.awaits hc hothers) plain v
    (hended.settled hsound (settled_answered hc₁ v))).trans hlogged.leads
  have hall := hended.steps ((hrest.steps (hended.sound hsound)).trans later)
  have hbefore : (w₁.answered p v).toldTo c.label = w.toldTo c.label :=
    congrArg (List.filter _) (hasides.passes.told.trans (List.append_nil _))
  exact hbefore ▸ hall.toldTo

end World

end GhostText
