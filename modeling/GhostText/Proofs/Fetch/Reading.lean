import GhostText.Proofs.Fetch.Pairs
import GhostText.Proofs.Run.Reticence

/-!
# Answers to fetches

Where only the controller fetches, a call either ends no fetch or ends one fetch of the controller's
before it tells anybody else that it has settled. So a body that answers such a call settles the
call, ends the fetch, and then does what it would do if there were no fetch.
-/

namespace GhostText

variable {k : Regime} {w w' : World}

/-! ## Calls that were made for a fetch -/

namespace Call

/-- The fetch that the call ends before anything else. -/
def task? (c : Call) : Option Nat :=
  match c.onResult with
  | .fetched task _ :: _ => some task
  | _ => none

theorem Ends.task?_eq {c : Call} {task : Nat} {sink : CompletionSink} (h : c.Ends task sink) :
    c.task? = some task := by
  obtain ⟨qs, he, -⟩ := h.onResult
  rw [task?, he]

theorem FetchesNothing.task?_eq_none {c : Call} (h : c.FetchesNothing) : c.task? = none := by
  unfold task?
  split
  · next task sink qs he =>
    simpa [Continuation.isOfFetch] using h (.fetched task sink) (by simp [he])
  · rfl

end Call

/-- Where only the controller fetches, every call stays paired with nothing or with one fetch of the
controller's. -/
theorem Steps.paired_own (h : Steps k w w') (hs : k.Sound w)
    (own : ∀ position cb, ¬ k.does (.task (.start position cb)))
    (hw : w.client.Paired (· = .controller)) : w'.client.Paired (· = .controller) :=
  h.paired hs (fun _ hsink => hsink.resolve_right fun ⟨position, cb, hd⟩ => own position cb hd) hw

/-- A call that waits has not settled. -/
theorem Client.Ledger.status_of_waiting {c : Client} (h : c.Ledger) {p : PendingCall} {call : Call}
    (hp : p ∈ c.pending) (hc : c.call? p.id = some call) : call.status = .pending := by
  obtain ⟨call', hc', hpending, -⟩ := h.waiting p hp
  obtain rfl := Option.some.inj (hc.symm.trans hc')
  simp only [Call.isPending, Bool.and_eq_true, decide_eq_true_eq] at hpending
  exact hpending.1

/-! ## The end of a fetch -/

namespace World

variable {run : Runner}

/-- What a fetch of the controller's does with what its call has settled with. -/
def endFetch (run : Runner) (task : Nat) : Verdict → World → World
  | .ok (.completions r), w => (fetchAnswered run task r .controller w).2
  | .ok (.value _), w => w
  | .error f, w => fetchFailed run task f w

theorem callBack_fetched (task : Nat) (r : Reply) (w : World) :
    w.callBack (continueWithReply run r (.fetched task .controller)) =
      endFetch run task (.ok r) w := by
  cases r with
  | value v => rfl
  | completions r =>
    have hok : (fetchAnswered run task r .controller w).1 = .ok () := by
      unfold fetchAnswered
      dsimp only
      split
      · rfl
      · split <;> rfl
    change w.callBack (fetchAnswered run task r .controller) = _
    unfold callBack
    split
    · next hx => exact (congrArg Prod.snd hx).symm
    · next hx => simp [hx] at hok

/-- Whatever its call settles with, the end of a fetch of the controller is the same operation. -/
theorem callBack_ending (task : Nat) (v : Verdict) (w : World) :
    w.callBack (v.continueWith run (v.ending task .controller)) = endFetch run task v w := by
  cases v with
  | ok r => exact callBack_fetched task r w
  | error f => rfl

/-- A response to a call whose result is read as completions settles it with what that gives. -/
theorem handleResponse_completions (run : Runner) {id : Json} {p : PendingCall}
    (hp : w.client.pendingFor? id = some p) (ht : p.treatment = .completions) (result : Json)
    (error : Option ResponseError) : ∃ w₁, w.AddsAsides w₁ ∧
      handleResponse run id result error w = settleBy run p.id (p.treatment.verdict result error)
        (w₁.updateClient fun c => c.dropPending p.id) := by
  obtain ⟨w₁, he, ⟨w₀, asides, rfl⟩ | ⟨haccount, -⟩⟩ := handleResponse_of_some run hp result error
  · exact ⟨w₀, asides, he⟩
  · exact absurd (ht.symm.trans haccount) nofun

/-- A response is handled, and then it is logged. -/
theorem dispatch_response (run : Runner) {value id result : Json} {error : Option ResponseError}
    (h : Message.classify value = .ok (.response id result error)) (w : World) :
    dispatch run w (.value value) =
      (handleResponse run id result error w).logTraffic "in" "<--" value :=
  dispatch_of_classify run h w

/-- A body that answers a fetch, with what its call settles with. -/
structure Reads (w : World) (b : Frame.Body) (p : PendingCall) (task : Nat) (v : Verdict) :
    Prop where
  waiting : p ∈ w.client.pending
  verdict : ∃ result error, b.responseTo? p.id = some (result, error) ∧
    v = p.treatment.verdict result error
  fetches : ∃ call, w.client.call? p.id = some call ∧ call.Ends task .controller

/-- The call has settled, and all that waits for it is still to be told. -/
def answered (p : PendingCall) (v : Verdict) (w : World) : World :=
  w.updateClient fun c => (c.dropPending p.id).updateCall p.id (Call.settle v)

/-- That a waiting call is answered is a step. -/
theorem leads_answered {p : PendingCall} (hp : p ∈ w.client.pending) {w₁ : World}
    (h : w.AddsAsides w₁) (v : Verdict) : Leads k w (w₁.answered p v) := by
  refine h.leads.trans (.single (.client (.settle ?_ v.settling)) rfl rfl)
  obtain ⟨es, he, -⟩ := h
  rw [he]
  exact hp

/-- The call that is answered settles. -/
theorem call?_answered {p : PendingCall} {w₁ : World} {call : Call}
    (hc : w₁.client.call? p.id = some call) (v : Verdict) :
    (w₁.answered p v).client.call? p.id = some (Call.settle v call) := by
  rw [answered, updateClient, Client.call?_updateCall v.settling.id, if_pos rfl,
    Client.call?_dropPending, hc, Option.map_some]

theorem settled_answered {p : PendingCall} {w₁ : World} {call : Call}
    (hc : w₁.client.call? p.id = some call) (v : Verdict) : (w₁.answered p v).Settled p.id :=
  ⟨Call.settle v call, call?_answered hc v, v.settling.status call⟩

/-- When a call settles that waits, what waits for it is told, and nothing else happens. -/
theorem settleBy_answered (run : Runner) (hl : w.client.Ledger) {p : PendingCall} {call : Call}
    (hp : p ∈ w.client.pending) (hc : w.client.call? p.id = some call) {w₁ : World}
    (h : w.AddsAsides w₁) (v : Verdict) :
    settleBy run p.id v (w₁.updateClient fun c => c.dropPending p.id) =
      (v.waiting call).foldl (fun w q => w.callBack (v.continueWith run q)) (w₁.answered p v) := by
  have hc₁ : (w₁.updateClient fun c => c.dropPending p.id).client.call? p.id = some call := by
    obtain ⟨es, he, -⟩ := h
    rw [he]
    exact hc
  rw [settleBy, settleCall, hc₁]
  simp only [hl.status_of_waiting hp hc, ne_eq, not_true_eq_false, if_false]
  rfl

/-- Where answers are read a fetch ends by steps. -/
theorem leads_endFetch (hr : run.Steady k) (hreads : k.reads) (task : Nat) (v : Verdict) {id : Nat}
    (hs : w.Settled id) : Leads k w (endFetch run task v w) := by
  cases v with
  | ok r =>
    rw [← callBack_fetched]
    exact leads_callBack (leads_continueWithReply hr r (q := .fetched task .controller) trivial
      (fun _ => hreads) hs)
  | error f => exact leads_fetchFailed hr hreads.1 task f w

/-- What waits for a call and ends no fetch is told by steps. -/
theorem leads_told (hr : run.Steady k) {id : Nat} {qs : List Continuation}
    (awaits : k.AwaitsAll id qs) (plain : ∀ q ∈ qs, q.isOfFetch = false) (v : Verdict)
    (hs : w.Settled id) :
    Leads k w (qs.foldl (fun w q => w.callBack (v.continueWith run q)) w) := by
  refine leads_continuations (fun w q hq hset => ?_) hs
  cases v with
  | ok r => exact leads_continueWithReply hr r (awaits q hq) (by simp [plain q hq]) hset
  | error f => exact leads_continueWithError hr f (awaits q hq) (by simp [plain q hq]) hset

/-- What waits for the call of a fetch is told when it settles: the fetch first, the others after
it. -/
theorem leads_rest (hr : run.Steady k) (hfree : run.Steady k.toConduct.free) (hs : k.Sound w)
    {p : PendingCall} {task : Nat} {v : Verdict} {call : Call} (hp : p ∈ w.client.pending)
    (hc : w.client.call? p.id = some call) (hf : call.Ends task .controller) {w₁ : World}
    (h : w.AddsAsides w₁) : Leads k (endFetch run task v (w₁.answered p v))
      (settleBy run p.id v (w₁.updateClient fun c => c.dropPending p.id)) := by
  -- the first of those who wait is the fetch, and the others end none
  obtain ⟨others, hothers, plain⟩ := hf.waiting v
  rw [settleBy_answered run hs.ledger hp hc h, hothers, List.foldl_cons, callBack_ending]
  have hc₁ : w₁.client.call? p.id = some call := by
    obtain ⟨es, he, -⟩ := h
    rw [he]
    exact hc
  have hsettled := settled_answered hc₁ v
  have hsound := ((leads_answered hp h v).steps hs.free).sound hs.free
  have hended := leads_endFetch hfree ⟨trivial, trivial⟩ task v hsettled
  refine leads_told hr (fun q hq => ?_) plain v ((hended.steps hsound).settled hsound hsettled)
  have hawaits := hs.bound.calls call (Client.mem_of_call? hc) q
    (v.mem_of_waiting (hothers ▸ List.mem_cons_of_mem _ hq))
  exact Client.call?_eq_some_id hc ▸ hawaits

/-- A body answers no fetch, and all that happens are steps; or it answers one, and there are steps
up to its end and after its end. -/
theorem dispatch_reads (hr : run.Steady k) (hfree : run.Steady k.toConduct.free) (hs : k.Sound w)
    (paired : w.client.Paired (· = .controller)) (b : Frame.Body) :
    (∀ p task v, ¬ w.Reads b p task v) ∧ Leads k w (dispatch run w b) ∨
      ∃ p task v w₁, w.Reads b p task v ∧ w.AddsAsides w₁ ∧
        Leads k (endFetch run task v (w₁.answered p v)) (dispatch run w b) := by
  by_cases hreads : ∃ p task v, w.Reads b p task v
  · obtain ⟨p, task, v, hread⟩ := hreads
    obtain ⟨result, error, hb, hv⟩ := hread.verdict
    obtain ⟨call, hc, hf⟩ := hread.fetches
    have ht := paired.waiting p hread.waiting call task .controller hc hf
    obtain ⟨value, rfl, hclassify⟩ := Frame.Body.classify_of_responseTo? hb
    obtain ⟨w₁, hasides, hresponse⟩ := handleResponse_completions run
      (hs.ledger.pendingFor?_eq hread.waiting) ht result error
    refine Or.inr ⟨p, task, v, w₁, hread, hasides, ?_⟩
    rw [dispatch_response run hclassify, hresponse, ← hv]
    exact (leads_rest hr hfree hs hread.waiting hc hf hasides).trans (leads_logTraffic ..)
  · refine Or.inl ⟨fun p task v h => hreads ⟨p, task, v, h⟩, ?_⟩
    refine leads_dispatch hr b fun p hp hb c hc q hq hf => ?_
    obtain ⟨⟨result, error⟩, hb⟩ := Option.isSome_iff_exists.1 hb
    rcases paired.calls p.id c hc with hn | ⟨task, _, rfl, hfetch⟩
    · simp [hn q hq] at hf
    · exact absurd ⟨p, task, _, hp, ⟨result, error, hb, rfl⟩, c, hc, hfetch⟩ hreads

/-! ## Messages that are read -/

/-- The answer to a fetch: the call, the fetch, and what the call settles with. -/
structure FetchAnswer where
  call : Nat
  task : Nat
  verdict : Verdict

/-- The fetch that a body answers, if it answers one. -/
def fetchAnswer? (b : Frame.Body) (w : World) : Option FetchAnswer := do
  let p ← w.client.pending.find? fun p => (b.responseTo? p.id).isSome
  let (result, error) ← b.responseTo? p.id
  let call ← w.client.call? p.id
  let task ← call.task?
  return ⟨p.id, task, p.treatment.verdict result error⟩

/-- A message that answers a fetch is read as that answer. -/
theorem Reads.fetchAnswer?_eq {b : Frame.Body} {p : PendingCall} {task : Nat} {v : Verdict}
    (h : w.Reads b p task v) (hl : w.client.Ledger) :
    w.fetchAnswer? b = some ⟨p.id, task, v⟩ := by
  obtain ⟨result, error, hb, rfl⟩ := h.verdict
  obtain ⟨call, hc, hf⟩ := h.fetches
  have hp : (w.client.pending.find? fun p => (b.responseTo? p.id).isSome) = some p := by
    cases hq : w.client.pending.find? fun p => (b.responseTo? p.id).isSome with
    | none => exact absurd (List.find?_eq_none.1 hq p h.waiting) (by simp [hb])
    | some q =>
      have hsome : (b.responseTo? q.id).isSome = true := by simpa using List.find?_some hq
      have hid : q.id = p.id := Frame.Body.responseTo?_inj hsome (by rw [hb]; rfl)
      have hfound := hl.find?_pending (List.mem_of_find?_eq_some hq)
      rw [hid, hl.find?_pending h.waiting] at hfound
      rw [Option.some.inj hfound]
  simp [fetchAnswer?, hp, hb, hc, hf.task?_eq]

/-- Any other message is read as the answer to none. -/
theorem fetchAnswer?_eq_none {b : Frame.Body} (h : ∀ p task v, ¬ w.Reads b p task v)
    (paired : w.client.Paired (· = .controller)) : w.fetchAnswer? b = none := by
  by_contra hsome
  obtain ⟨a, ha⟩ := Option.ne_none_iff_exists'.1 hsome
  simp only [fetchAnswer?, Option.bind_eq_bind, Option.bind_eq_some_iff] at ha
  obtain ⟨p, hp, ⟨result, error⟩, hb, call, hc, task, ht, -⟩ := ha
  rcases paired.calls p.id call hc with hn | ⟨task, _, rfl, hf⟩
  · simp [hn.task?_eq_none] at ht
  · exact h p task _ ⟨List.mem_of_find?_eq_some hp, ⟨result, error, hb, rfl⟩, call, hc, hf⟩

def dispatches (run : Runner) : List Frame.Body → World → List (Frame.Body × World)
  | [], _ => []
  | b :: bs, w => (b, w) :: dispatches run bs (dispatch run w b)

def readings (a : Action) (w : World) : List (Frame.Body × World) :=
  match a with
  | .client (.receive bytes) =>
    dispatches (runTo depthLimit) (w.client.reader.feed bytes).bodies (w.feed bytes)
  | _ => []

/-! ## Between two operations -/

/-- The world is sound, nothing is answered at once, every call ends no fetch or one of the
controller's, and no session is left half ended. -/
structure Standing (k : Conduct) (w : World) : Prop where
  sound : k.free.Sound w
  unready : w.transport.answers = []
  paired : w.client.Paired (· = .controller)
  ended : ∀ n s, w.session? n = some s → s.closing = true → s.isFinished = true

/-- Between two operations a host that leaves fetches to the controller stands as before. -/
theorem Standing.goes {r : Regime} (h : w.Standing r.toConduct) (hs : r.Sound w)
    (own : ∀ position cb, ¬ r.does (.task (.start position cb))) (hl : Goes r w w') :
    w'.Standing r.toConduct := by
  have hsteps := hl.steps hs
  refine ⟨(hsteps.sound hs).free, (Steps.answers_eq hsteps).1.trans h.unready,
    Steps.paired_own hsteps hs own h.paired, fun n s hs' hc => ?_⟩
  by_contra hf
  obtain ⟨s₀, hs₀, hc₀, hf₀⟩ := (hl.closes hs).ended n s hs' hc (by simpa using hf)
  simp [h.ended n s₀ hs₀ hc₀] at hf₀

theorem Begins.standing {k : Conduct} {t : Transport} {setup : ClientSetup} (h : Begins t setup w)
    (hs : k.Equips setup) (ht : t.answers = []) : w.Standing k := by
  have hf := h.fresh hs
  refine ⟨hf.sound, by rw [hf.transport, ht], ⟨?_, ?_⟩, ?_⟩
  · simp [Client.call?, hf.calls]
  · simp [hf.pending]
  · simp [session?, hf.sessions]

end World

end GhostText
