import GhostText.Proofs.Client.Receiving
import GhostText.Proofs.Document.Offsets
import GhostText.Proofs.Fetch.Ending
import GhostText.Proofs.Run.Unrestrained
import GhostText.Proofs.Settings.Normal

/-!
# Every answer ends its fetch

Whatever value the server gives as the result of a request for completions, the request settles once
and its fetch is over: either the value is read as completions, which stand where completions can
stand, and at most the first of them is handed on, or the request fails and nothing comes of it.
-/

namespace GhostText

/-! ## Reading an answer -/

/-- However its ends are written, a range that is read begins before it ends. -/
theorem Range.start_le_stop_ordered (p q : Position) :
    (ordered p q).start ≤ (ordered p q).stop := by
  unfold ordered
  split
  · next h => exact le_of_lt h
  · next h => exact not_lt.1 h

namespace Completion

/-- A completion that stands in a document, for a stretch that does not end before it begins. -/
structure Placed (c : Completion) : Prop where
  position : ⟨0, 0⟩ ≤ c.position
  start : ⟨0, 0⟩ ≤ c.range.start
  ordered : c.range.start ≤ c.range.stop

/-- A completion that is read has its range in order. -/
theorem placed_of_ofJson {v : Json} {c : Completion} (h : ofJson v = .ok c) : c.Placed := by
  obtain ⟨range, hrange, h⟩ := exists_of_bind_eq_ok h
  have hread : c.range = range := by
    dsimp only at h
    split at h <;>
      (obtain ⟨position, -, h⟩ := exists_of_bind_eq_ok h
       obtain ⟨docVersion, -, h⟩ := exists_of_bind_eq_ok h
       cases h
       rfl)
  obtain ⟨start, -, hrange⟩ := exists_of_bind_eq_ok hrange
  obtain ⟨stop, -, hrange⟩ := exists_of_bind_eq_ok hrange
  cases hrange
  exact ⟨Position.zero_le _, Position.zero_le _, hread ▸ Range.start_le_stop_ordered start stop⟩

end Completion

theorem CompletionResult.placed_of_ofJson {v : Json} {r : CompletionResult} (h : ofJson v = .ok r) :
    ∀ c ∈ r.completions, c.Placed := by
  obtain ⟨items, -, h⟩ := exists_of_bind_eq_ok h
  obtain ⟨completions, hread, h⟩ := exists_of_bind_eq_ok h
  cases h
  have hplaced : List.Forall₂ (fun c item => c.Placed ∧ Completion.ofJson item = .ok c)
      completions (items.filter Json.isObject) :=
    (mapM_eq_ok_iff.1 hread).flip.imp fun _ _ hitem => ⟨Completion.placed_of_ofJson hitem, hitem⟩
  exact ((List.forall₂_and_left ..).1 hplaced).1

/-! ## What is off the table stays off it -/

/-- Fetches are numbered in the order in which they were started. -/
def Fetches.Numbered (t : Fetches) : Prop := ∀ task ∈ t.ids, task ≤ t.started

namespace FetchStep

variable {k : Regime} {t t' : Fetches}

/-- A fetch that is under way afterwards was so before, or it has just been started. -/
theorem mem_ids (h : FetchStep k t t') : t.started ≤ t'.started ∧
    ∀ task ∈ t'.ids, task ∈ t.ids ∨ t.started < task ∧ task ≤ t'.started := by
  cases h with
  | start =>
    refine ⟨Nat.le_succ _, fun task hm => ?_⟩
    simp only [Fetches.ids, List.map_append, List.map_cons, List.map_nil, List.mem_append,
      List.mem_singleton] at hm
    exact hm.imp_right fun he => by simp only [he]; omega
  | cancel id =>
    have hids := (Fetches.Wanes.giveUp (fun f => (f.id : Int) = id) t).ids
    exact ⟨Nat.le_refl _, fun task hm => .inl (hids ▸ hm)⟩
  | cancelAll =>
    have hids := (Fetches.Wanes.giveUp (fun _ => True) t).ids
    simp only [if_true] at hids
    exact ⟨Nat.le_refl _, fun task hm => .inl (hids ▸ hm)⟩
  | finish id =>
    refine ⟨Nat.le_refl _, fun task hm => .inl ?_⟩
    obtain ⟨f, hf, rfl⟩ := List.mem_map.1 hm
    exact List.mem_map.2 ⟨f, (List.mem_filter.1 hf).1, rfl⟩
  | _ => exact ⟨Nat.le_refl _, fun _ hm => .inl hm⟩

theorem numbered (h : FetchStep k t t') (hn : t.Numbered) : t'.Numbered := by
  obtain ⟨hle, hids⟩ := h.mem_ids
  intro task hm
  exact (hids task hm).elim (fun hm => (hn task hm).trans hle) And.right

/-- A fetch that has left the table does not come back. -/
theorem stays_over (h : FetchStep k t t') {task : Nat} (ho : t.Over task) : t'.Over task := by
  obtain ⟨hle, hids⟩ := h.mem_ids
  refine ⟨ho.started.trans hle, fun hm => ?_⟩
  rcases hids task hm with hm | ⟨hlt, -⟩
  · exact ho.gone hm
  · exact absurd ho.started (Nat.not_le.2 hlt)

end FetchStep

/-- What every step of the fetches keeps a whole run keeps. -/
theorem Steps.fetches {k : Regime} {w w' : World} (h : Steps k w w') {P : Fetches → Prop}
    (hP : ∀ t t', FetchStep k t t' → P t → P t') (hw : P w.fetches) : P w'.fetches := by
  induction h with
  | refl => exact hw
  | tail _ step ih =>
    cases step with
    | fetches step => exact hP _ _ step ih
    | session step => exact step.beside.fetches ▸ ih
    | document step => exact step.informs.fetches ▸ ih
    | _ => exact ih

/-- A fetch that leaves the table is over. -/
theorem Fetches.Numbered.over_removeFetch {w : World} (h : w.fetches.Numbered) {task : Nat}
    (hm : task ∈ w.fetches.ids) : (w.removeFetch task).2.fetches.Over task := by
  refine ⟨h task hm, fun hm => ?_⟩
  obtain ⟨f, hf, he⟩ := List.mem_map.1 hm
  simpa [he] using (List.mem_filter.1 hf).2

/-! ## A fetch that is over -/

/-- The call was answered with a verdict. -/
def Call.SettledBy (c : Call) : Verdict → Prop
  | .ok r => c.status = .fulfilled ∧ c.result = some r
  | .error f => c.status = .rejected ∧ c.error = some f

theorem Call.settledBy_settle (v : Verdict) (c : Call) : (Call.settle v c).SettledBy v := by
  cases v <;> exact ⟨rfl, rfl⟩

/-- What a call has settled with stays. -/
theorem Call.SettledBy.evolves {c c' : Call} {v : Verdict} (h : c.SettledBy v)
    (he : c.Evolves c') : c'.SettledBy v := by
  cases v with
  | ok r =>
    obtain ⟨hstatus, hresult, -⟩ := he.settled (by simp [h.1])
    exact ⟨hstatus.trans h.1, hresult.trans h.2⟩
  | error f =>
    obtain ⟨hstatus, -, herror⟩ := he.settled (by simp [h.1])
    exact ⟨hstatus.trans h.1, herror.trans h.2⟩

/-- A request has settled with a verdict and waits no more, and its fetch is off the table. -/
structure World.Resolved (w : World) (id task : Nat) (v : Verdict) : Prop where
  settled : ∃ call, w.client.call? id = some call ∧ call.SettledBy v
  absent : w.client.Absent id
  concluded : w.fetches.Over task

variable {k : Regime} {w w' : World} {task : Nat}

/-- That lasts. -/
theorem Steps.resolved (h : Steps k w w') (hs : k.Sound w) {id : Nat} {v : Verdict}
    (hr : w.Resolved id task v) : w'.Resolved id task v := by
  obtain ⟨call, hc, hcall⟩ := hr.settled
  obtain ⟨call', hc', he⟩ := h.evolves hs hc
  exact ⟨⟨call', hc', hcall.evolves he⟩, h.absent hr.absent,
    h.fetches (fun _ _ step => step.stays_over) hr.concluded⟩

namespace World

/-- Once its call is answered and it is off the table a fetch is resolved. -/
theorem resolved_answered (hl : w.client.Ledger) (hn : w.fetches.Numbered) {p : PendingCall}
    {call : Call} (hc : w.client.call? p.id = some call) (hm : task ∈ w.fetches.ids) (v : Verdict) :
    ((w.answered p v).removeFetch task).2.Resolved p.id task v := by
  refine ⟨⟨_, call?_answered hc v, call.settledBy_settle v⟩, ⟨?_, fun q hq => ?_⟩,
    Fetches.Numbered.over_removeFetch (w := w.answered p v) hn hm⟩
  · change p.id < ((w.client.dropPending p.id).updateCall p.id (Call.settle v)).nextId
    rw [Client.nextId_updateCall]
    exact hl.lt_nextId hc
  · exact Client.ne_of_mem_dropPending hq

section Beginning

variable {t : Transport} {setup : ClientSetup} (h : Begins t setup w)

include h

theorem Begins.paired : w.client.Paired fun _ => True := by
  have hfresh := h.fresh (Conduct.any_equips setup)
  refine ⟨?_, ?_⟩
  · simp [Client.call?, hfresh.calls]
  · simp [hfresh.pending]

theorem Begins.numbered : w.fetches.Numbered := by
  have hfresh := h.fresh (Conduct.any_equips setup)
  simp [Fetches.Numbered, Fetches.ids, hfresh.fetches]

end Beginning

/-- What is read as the result of a request for completions has them placed. -/
theorem placed_of_verdict {result : Json} {error : Option ResponseError} {r : CompletionResult}
    (h : Treatment.completions.verdict result error = .ok (.completions r)) :
    ∀ c ∈ r.completions, c.Placed := by
  obtain ⟨r', hreply, hread⟩ := Treatment.completions_of_verdict h
  cases hreply
  exact CompletionResult.placed_of_ofJson hread

/-- Once an answer is taken, its request is resolved, and so it stays. -/
theorem TakesAnswer.resolved {run : Runner} {p : PendingCall} {call : Call} {sink : CompletionSink}
    {v : Verdict} {w'' : World} (h : w.TakesAnswer run p call task sink v w')
    (hp : p ∈ w.client.pending) (hc : w.client.call? p.id = some call) (hr : run.Steady k)
    (hreads : k.reads) (hs : k.Sound w) (hends : call.Ends task sink) (hn : w.fetches.Numbered)
    (hm : task ∈ w.fetches.ids) (later : Steps k w' w'') : w''.Resolved p.id task v := by
  obtain ⟨w₁, hasides, hleads⟩ := h.leads hp hc hr hreads hs hends
  have hanswered := ((leads_answered hp hasides v).steps hs).sound hs
  have hremoved := ((leads_removeFetch hreads.1 task _).steps hanswered).sound hanswered
  refine Steps.resolved ((hleads.steps hremoved).trans later) hremoved ?_
  obtain ⟨es, rfl, -⟩ := hasides
  exact resolved_answered (w := { w with events := w.events ++ es }) hs.ledger hn hc hm v

/-- Whatever value the server gives as the answer to the request of a fetch, and any value makes an
answer (`Message.classify_answer`), taking it fails nowhere. The request settles with what the value
is read as, its fetch is over, and both stay so. At most one completion is handed on meanwhile, and
all that are read stand where completions can stand. A value that cannot be read fails the request,
and nothing is sent or shown for it. A callback of the host that is registered for nothing else is
told of the one completion, and never of another. -/
theorem answer_ends_fetch {t : Transport} {setup : ClientSetup} {w₀ w : World}
    (begins : Begins t setup w₀) (reached : Steps Conduct.any.free w₀ w) {p : PendingCall}
    {call : Call} (waiting : p ∈ w.client.pending) (found : w.client.call? p.id = some call)
    {task : Nat} {sink : CompletionSink} (asked : .fetched task sink ∈ call.onResult)
    (underWay : task ∈ w.fetches.ids) {bytes : List UInt8} {value result : Json}
    {error : Option ResponseError} (body : (w.client.reader.feed bytes).bodies = [.value value])
    (answer : Message.classify value = .ok (.response (.int p.id) result error)) (depth : Nat)
    (context : Option Nat) :
    let v := Treatment.completions.verdict result error
    let u := w.feed bytes
    ∃ w', perform (runTo depth) context (.client (.receive bytes)) w = (.ok .nothing, w') ∧
      call.status = .pending ∧
      (∀ w'', Steps Conduct.any.free w' w'' → w''.Resolved p.id task v) ∧
      u.TakesAnswer (runTo depth) p call task sink v w' ∧
      (∀ r, v = .ok (.completions r) → ∀ c ∈ r.completions, c.Placed) ∧
      (∀ f, v = .error f → call.onError = [.fetchFailed task] → u.Unwatched → u.Sends w' []) ∧
      ∀ c, sink = .host c → u.Reserves p.id c.label →
        (Conduct.without c.label).AllowsAll c.script →
        ∀ w'', Steps (Conduct.without c.label).free w' w'' → ∃ told : Option Completion,
          w''.toldTo c.label = u.toldTo c.label ++
            (told.map fun completion => (c.label, .completion, .completion completion)).toList ∧
          ∀ completion ∈ told, ∃ r, v = .ok (.completions r) ∧ completion ∈ r.completions := by
  intro v u
  have hs₀ := (begins.fresh (Conduct.any_equips setup)).sound
  have hs := reached.sound hs₀
  have hpaired := reached.paired hs₀ (fun _ _ => trivial) begins.paired
  have hnumbered := reached.fetches (fun _ _ step => step.numbered) begins.numbered
  obtain ⟨task', sink', -, hends⟩ := (hpaired.calls p.id call found).resolve_left fun hn => by
    simpa [Continuation.isOfFetch] using hn _ (List.mem_append_left _ asked)
  obtain ⟨rfl, rfl⟩ := hends.eq_of_mem asked
  have ht := hpaired.waiting p waiting call task sink found hends
  -- the bytes are read before the message is dispatched
  have hidles : w.Idles u := idles_feed bytes w
  have hu : Conduct.any.free.Sound u := ((leads_feed bytes w).steps hs).sound hs
  have hperform : perform (runTo depth) context (.client (.receive bytes)) w =
      (.ok .nothing, dispatch (runTo depth) u (.value value)) := by
    change (Except.ok Answer.nothing, receive (runTo depth) bytes w) = _
    rw [receive_eq, body]
    rfl
  rw [hperform]
  clear_value u
  have hp : p ∈ u.client.pending := hidles.pending ▸ waiting
  have hc : u.client.call? p.id = some call := by
    simpa only [Client.call?, hidles.calls] using found
  have htakes := dispatch_takesAnswer hp hc (runTo depth) hu.ledger hends ht answer
  rw [ht] at htakes
  change u.TakesAnswer (runTo depth) p call task sink v _ at htakes
  refine ⟨_, rfl, hs.ledger.status_of_waiting waiting found, fun w'' later => ?_, htakes,
    fun r => placed_of_verdict, fun f hf alone hw => ?_,
    fun c hsink reserved script w'' later => ?_⟩
  · exact htakes.resolved hp hc (steady_runTo depth) ⟨trivial, trivial⟩ hu hends
      (hidles.fetches ▸ hnumbered) (hidles.fetches ▸ underWay) later
  · exact TakesAnswer.sends_nothing (f := f) (hf ▸ htakes) alone hw
  · subst hsink
    exact htakes.toldTo (steady_runTo depth) hu.ledger hc reserved script later

/-- The ends of a range come in the wrong order, with a text, a truth value, a negative number and
nothing for their coordinates, and the next completion is none. -/
theorem answer_ends_fetch_disordered :
    let place (line character : Json) : Json := .obj [("line", line), ("character", character)]
    let completion : Json := .obj [("uuid", .int 7), ("docVersion", .null), ("text", .str "t"),
      ("range", .obj [("start", place (.str "3") .null), ("end", place (.bool true) (.int (-4)))])]
    let result : Json := .obj [("completions", .arr [completion, .null])]
    let m := Message.response (.int 1) result none
    let range? (o : Outcome) : Option Range := match o with
      | .completion c => some c.range
      | _ => none
    let actions : List Action := [.task (.start ⟨.int 0, .int 0⟩ (some ⟨"taken", []⟩))]
    ∃ w₀, startEditing 1 ⟨true, [], .atOnce, false, []⟩ ⟨.null, .null, [], []⟩
        ⟨.str "ab", .str "/a.txt", .null, .lf⟩ none none none none = .ok w₀ ∧
      ∃ w', act (.client (.receive (Frame.encode m.toJson))) (w₀.after actions) =
        (.ok .nothing, w') ∧ w'.Resolved 1 1 (Treatment.completions.verdict result none) ∧
        (w'.callbacks.map fun x => (x.1, range? x.2.2)) =
          [("taken", some ⟨⟨1, 0⟩, ⟨3, 0⟩⟩)] := by
  intro place completion result m range? actions
  refine ⟨_, rfl, ?_⟩
  have begins : Begins ⟨true, [], .atOnce, false, []⟩ ⟨.null, .null, [], []⟩ _ :=
    .assistant 1 ⟨.str "ab", .str "/a.txt", .null, .lf⟩ none none none none rfl
  have reached := (leads_after (k := Conduct.any.free) (Conduct.any_takes actions _)).steps
    (begins.fresh (Conduct.any_equips _)).sound
  generalize hw : World.after actions _ = w at reached ⊢
  have hreader : w.client.reader = .fresh := by rw [← hw]; rfl
  have hbody : (w.client.reader.feed (Frame.encode m.toJson)).bodies = [.value m.toJson] := by
    rw [hreader, Frame.feed_encode (by decide +kernel) (by decide +kernel)]
  obtain ⟨p, hpending, hid⟩ : ∃ p, w.client.pending = [p] ∧ p.id = 1 := by
    rw [← hw]
    exact ⟨_, rfl, rfl⟩
  obtain ⟨call, hcall, hasked⟩ : ∃ call, w.client.call? 1 = some call ∧
      .fetched 1 (.host ⟨"taken", []⟩) ∈ call.onResult := by
    rw [← hw]
    exact ⟨_, rfl, List.mem_cons_self⟩
  have hunder : 1 ∈ w.fetches.ids := by
    rw [← hw]
    decide +kernel
  have hanswer : Message.classify m.toJson = .ok (.response (.int p.id) result none) :=
    hid ▸ Message.classify_answer 1 result
  obtain ⟨w', hperform, -, hresolved, -⟩ := answer_ends_fetch begins reached
    (hpending ▸ List.mem_cons_self) (hid ▸ hcall) hasked hunder hbody hanswer depthLimit none
  refine ⟨w', hperform, hid ▸ hresolved w' .refl, ?_⟩
  obtain rfl : (act (.client (.receive (Frame.encode m.toJson))) w).2 = w' :=
    congrArg Prod.snd hperform
  rw [← hw]
  decide +kernel

end World

end GhostText
