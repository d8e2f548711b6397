import GhostText.Proofs.Fetch.Tending

/-!
# How fetches start and end

Sending and reporting keep the tables in step, and so do the two ends of a fetch: it is taken off
the table with the outcome of its request, and a request that is made for it is unanswered or, if it
was refused, over.
-/

namespace GhostText

/-- Some fetch is wanted unless all were given up. -/
theorem Fetches.allCancelled_iff {t : Fetches} :
    t.allCancelled = true ↔ ∀ task, ¬ t.Wants task := by
  simp only [allCancelled, List.all_eq_true, Wants]
  constructor
  · intro h task hw
    simpa using h _ hw
  · rintro h ⟨id, cancelled⟩ hm
    cases cancelled with
    | true => rfl
    | false => exact absurd hm (h id)

/-- A call is for one fetch at most. -/
theorem Call.IsFor.inj {c : Call} {task task' : Nat} {sink sink' : CompletionSink}
    (h : c.IsFor task sink) (h' : c.IsFor task' sink') : task = task' ∧ sink = sink' := by
  simpa using h.onResult.symm.trans h'.onResult

/-- What the host alone waits for is for no fetch. -/
theorem Call.IsFor.not_plain {k : Conduct} {c : Call} {task : Nat} {sink : CompletionSink}
    (h : c.IsFor task sink) : ¬ ∀ q ∈ c.onResult ++ c.onError, k.Answers q := by
  intro hplain
  obtain ⟨_, _, hq, -⟩ := hplain (.fetched task sink) (by simp [h.onResult])
  cases hq

namespace World

variable {k : Conduct} {o : Prop} {run : Runner} {w w' : World}

theorem Fetching.asksFor (h : w.Fetching k) {id task : Nat} {sink : CompletionSink}
    (ha : w.client.AsksFor id task sink) : k.Delivers sink ∧ task ≤ w.fetches.started := by
  obtain ⟨call, hc, hfor⟩ := ha
  rcases h.asks id call hc hfor.pending with ⟨task', sink', hfor', hdelivers, hle⟩ | hplain
  · obtain ⟨rfl, rfl⟩ := hfor.inj hfor'
    exact ⟨hdelivers, hle⟩
  · exact absurd hplain hfor.not_plain

/-! ## Scripts and callbacks -/

theorem Tends.tell {w₀ : World} {x : Act World Unit} (h : Tends k o w₀ (x w).2) :
    Tends k o w₀ (w.tell x) :=
  h.trans ((addsAsides_tell x w).idles.tends h.fetching)

theorem Tends.callBack {w₀ : World} {x : Act World Unit} (h : Tends k o w₀ (x w).2) :
    Tends k o w₀ (w.callBack x) :=
  h.trans ((addsAsides_callBack x w).idles.tends h.fetching)

theorem idles_transmit (payload : Json) (w : World) : w.Idles (w.transmit payload).2 := by
  unfold transmit
  split
  · exact idles_record ..
  · exact .refl w

section Running

variable (hr : run.Tends k o) (h : w.Fetching k)

include hr h

/-- An answer that is ready is taken like one that comes later. -/
theorem tends_send (payload : Json) : Tends k o w (send run payload w).2 := by
  have hsent := (idles_transmit payload w).tends (o := o) h
  obtain ⟨w₁, asides, hw₁⟩ := send_cases run payload w
  have hbefore : Tends k o w w₁ := by
    rcases hw₁ with rfl | ⟨answer, -, rfl | rfl⟩
    · exact hsent
    · have hlater : (w.transmit payload).2.Idles { (w.transmit payload).2 with transport :=
          { (w.transmit payload).2.transport with
            arriving := (w.transmit payload).2.transport.arriving ++ [answer] } } :=
        ⟨rfl, rfl, rfl, rfl, rfl, rfl, List.prefix_refl _⟩
      exact hsent.trans (hlater.tends hsent.fetching)
    · exact hsent.trans (.tell (hr _ _ trivial hsent.fetching))
  exact hbefore.trans (asides.idles.tends hbefore.fetching)

theorem tends_callHost {c : Callback Action} (hc : k.AllowsAll c.script) (kind : CallbackKind)
    (outcome : Outcome) : Tends k o w (callHost run kind c outcome w).2 := by
  have hnoted := (idles_record (.calledBack c.label kind outcome) w).tends (o := o) h
  exact hnoted.trans (hr _ _ hc hnoted.fetching)

theorem tends_callSubscriber (notice : Notice) (s : Subscriber) :
    Tends k o w (callSubscriber run notice s w).2 := by
  cases s with
  | host label =>
    have hnoted := (idles_record (.told label notice) w).tends (o := o) h
    exact hnoted.trans
      (hr _ _ (Conduct.allowsAll_lookup h.subscribers label) hnoted.fetching)
  | terminal =>
    cases notice with
    | statusChanged old new => exact (idles_record _ w).tends h
    | serverStarted result => exact .refl h

theorem tends_tellSubscribers (notice : Notice) :
    Tends k o w (tellSubscribers run notice w) := by
  refine Tends.foldl (fun w h s _ => ?_) h
  unfold tellSubscription
  split
  · exact .tell (tends_callSubscriber hr h notice s.subscriber)
  · exact .refl h

/-! ## Reporting -/

omit hr in
/-- The status alone changes. -/
theorem minds_status (s : Status) :
    Minds k o w (w.updateAssistant fun a => { a with status := s }) :=
  .of_tables (h.congr rfl (List.Sublist.refl _) rfl rfl rfl rfl) rfl rfl rfl (List.prefix_refl _)

/-- A status is there already, or it is taken on first and then told. -/
theorem changeStatus_cases (s : Status) :
    w.assistant.status = s ∧ changeStatus run s w = w ∨
      ∃ w₁, Minds k o w w₁ ∧ w₁.assistant.status = s ∧ w₁.fetches = w.fetches ∧
        Tends k o w₁ (changeStatus run s w) := by
  unfold changeStatus
  dsimp only
  split
  · next he => exact .inl ⟨he.symm, rfl⟩
  · have hstatus := minds_status (o := o) h s
    have htold := (idles_record (.signalled (.statusChanged w.assistant.status s)) _).tends
      (o := o) hstatus.fetching
    exact .inr ⟨_, hstatus.trans htold.toMinds, rfl, rfl,
      tends_tellSubscribers hr htold.fetching _⟩

theorem minds_changeStatus (s : Status) : Minds k o w (changeStatus run s w) := by
  rcases changeStatus_cases hr h s with ⟨-, he⟩ | ⟨w₁, hminds, -, -, htold⟩
  · rw [he]
    exact .refl h
  · exact hminds.trans htold.toMinds

/-- A status that agrees with the fetches is taken on. -/
theorem agrees_changeStatus {s : Status} (hs : s = .inProgress ↔ ∃ task, w.fetches.Wants task)
    (hu : (changeStatus run s w).OwnStatus) : (changeStatus run s w).Agrees := by
  rcases changeStatus_cases hr h s with ⟨hstatus, he⟩ | ⟨w₁, -, hstatus, hfetches, htold⟩
  · rw [he, Agrees, hstatus]
    exact hs
  · refine htold.status hu ?_
    rw [Agrees, hstatus, hfetches]
    exact hs

omit h in
/-- Whatever was done, a status that agrees with the fetches makes up for it. -/
theorem tends_changeStatus {w₁ : World} {s : Status} (hminds : Minds k o w w₁)
    (hs : s = .inProgress ↔ ∃ task, w₁.fetches.Wants task) :
    Tends k o w (changeStatus run s w₁) :=
  ⟨hminds.trans (minds_changeStatus hr hminds.fetching s),
    fun hu _ => agrees_changeStatus hr hminds.fetching hs hu⟩

omit h in
/-- After some fetches have come to be wanted no more the status is right again. -/
theorem tends_reportIfIdle {w₁ : World} (hminds : Minds k o w w₁)
    (hstatus : w₁.assistant.status = w.assistant.status)
    (hwants : ∀ task, w₁.fetches.Wants task → w.fetches.Wants task) :
    Tends k o w (reportIfIdle run w₁) := by
  unfold reportIfIdle
  split
  · next hidle =>
    have hnone := Fetches.allCancelled_iff.1 hidle
    exact tends_changeStatus hr hminds (by simp [Status.ofActivity, hnone])
  · next hbusy =>
    refine ⟨hminds, fun _ ha => ?_⟩
    simp only [Fetches.allCancelled_iff, not_forall, not_not] at hbusy
    obtain ⟨task, hw⟩ := hbusy
    rw [Agrees] at ha ⊢
    rw [hstatus, ha]
    exact ⟨fun _ => ⟨task, hw⟩, Exists.imp hwants⟩

end Running

/-! ## Fetches that are given up -/

/-- Fetches are given up, and nothing else happens. -/
theorem minds_wanes {t : Fetches} (h : w.Fetching k) (ht : w.fetches.Wanes t)
    (workspaceFolder : t.workspaceFolder = w.fetches.workspaceFolder)
    (activeFile : t.activeFile = w.fetches.activeFile) (tabSize : t.tabSize = w.fetches.tabSize) :
    Minds k o w { w with fetches := t } where
  fetching := h.congr rfl (List.Sublist.refl _) rfl rfl ht.started ht.ids
  events := List.prefix_refl _
  numbers := Nat.le_of_eq ht.started.symm
  lasting _ ho := ⟨ht.started ▸ ho.started, ht.ids ▸ ho.gone⟩
  asked _ _ _ ha := .inl ha
  remembers _ _ hm := hm
  typed _ hty := ⟨workspaceFolder ▸ hty.workspaceFolder, activeFile ▸ hty.activeFile,
    tabSize ▸ hty.tabSize⟩
  started _ _ _ hm := .inl (ht.ids ▸ hm)

section Running

variable (hr : run.Tends k o) (h : w.Fetching k)

include hr h

/-- A fetch that is given up stays in the table until its answer comes. -/
theorem tends_cancelFetch (id : Json) : Tends k o w (cancelFetch run id w).2 := by
  unfold cancelFetch
  cases id.toInteger with
  | error f => exact .refl h
  | ok n =>
    dsimp only
    split
    · have hw := Fetches.Wanes.giveUp (fun f => (f.id : Int) = n) w.fetches
      exact tends_reportIfIdle hr (minds_wanes h hw rfl rfl rfl) rfl hw.wanted
    · exact .refl h

theorem tends_cancelFetches : Tends k o w (cancelFetches run w) := by
  have hw : w.fetches.Wanes { w.fetches with
      underWay := w.fetches.underWay.map fun f => { f with cancelled := true } } := by
    simpa using Fetches.Wanes.giveUp (fun _ => True) w.fetches
  refine tends_changeStatus hr (minds_wanes h hw rfl rfl rfl) ?_
  simp only [Status.ofActivity, Bool.false_eq_true, if_false, reduceCtorEq, false_iff, not_exists]
  exact Fetches.not_wants_giveUpAll w.fetches

end Running

/-! ## The outcome of a call -/

/-- A call leaves the table of what waits and settles. -/
def endCall (id : Nat) (f : Call → Call) (w : World) : World :=
  w.updateClient fun c => (c.dropPending id).updateCall id f

section Ending

variable {id : Nat} {f : Call → Call} (hf : Settling f)

include hf

/-- When a call ends the others stay as they are. -/
theorem call?_endCall (i : Nat) : (w.endCall id f).client.call? i =
    if i = id then (w.client.call? i).map f else w.client.call? i :=
  Client.call?_updateCall hf.id id i

/-- A call that has not settled then is another one. -/
theorem call?_of_endCall {i : Nat} {call : Call} (hc : (w.endCall id f).client.call? i = some call)
    (hp : call.status = .pending) : i ≠ id ∧ w.client.call? i = some call := by
  rw [call?_endCall hf] at hc
  split at hc
  · obtain ⟨call', -, rfl⟩ := Option.map_eq_some_iff.1 hc
    exact absurd hp (hf.status call')
  · next hi => exact ⟨hi, hc⟩

theorem asksFor_endCall {i task : Nat} {sink : CompletionSink} (hi : i ≠ id) :
    (w.endCall id f).client.AsksFor i task sink ↔ w.client.AsksFor i task sink := by
  simp only [Client.AsksFor, call?_endCall hf, if_neg hi]

/-- The outcome of a call keeps the tables in step once its fetch is off. -/
theorem Fetching.endCall (h : w.Fetching k) : (w.endCall id f).Fetching k where
  ledger := h.ledger.endCall hf.id id
  asks i call hc hp := h.asks i call (call?_of_endCall hf hc hp).2 hp
  treatments p hp := by
    have hne := Client.ne_of_mem_dropPending (c := w.client) hp
    refine (h.treatments p (List.mem_filter.1 hp).1).imp_right fun ht => ht.imp_right ?_
    exact fun hn task sink ha => hn task sink ((asksFor_endCall hf hne).1 ha)
  handlers := h.handlers
  statusHandler := h.statusHandler
  subscribers := h.subscribers
  numbered := h.numbered

theorem Remembers.endCall {recent : Nat → Prop} (h : w.Remembers recent) :
    (w.endCall id f).Remembers recent := by
  intro i call hi hc hp
  obtain ⟨hne, hc⟩ := call?_of_endCall hf hc hp
  obtain ⟨p, hp, rfl⟩ := List.mem_map.1 (h i call hi hc hp)
  exact List.mem_map_of_mem (List.mem_filter.2 ⟨hp, by simpa using hne⟩)

/-- The end of a call that is for no fetch. -/
theorem tends_endCall (h : w.Fetching k) (hplain : ∀ task sink, ¬ w.client.AsksFor id task sink) :
    Tends k o w (w.endCall id f) where
  fetching := h.endCall hf
  events := List.prefix_refl _
  numbers := Nat.le_refl _
  lasting _ ho := ho
  asked i task sink ha := by
    have hne : i ≠ id := fun hi => hplain task sink (hi ▸ ha)
    exact .inl ((asksFor_endCall hf hne).2 ha)
  remembers _ _ hm := hm.endCall hf
  typed _ ht := ht
  started _ _ _ hm := .inl hm
  status _ ha := ha

omit hf in
theorem removeFetch_ids (task : Nat) (w : World) :
    ∀ t ∈ (w.removeFetch task).2.fetches.ids, t ∈ w.fetches.ids ∧ t ≠ task := by
  intro t ht
  obtain ⟨f, hf, rfl⟩ := List.mem_map.1 ht
  obtain ⟨hm, hne⟩ := List.mem_filter.1 hf
  exact ⟨List.mem_map_of_mem hm, by simpa using hne⟩

/-- The call of a fetch settles, and the fetch leaves the table. -/
theorem minds_ended {task : Nat} {sink : CompletionSink} (h : w.Fetching k)
    (ha : w.client.AsksFor id task sink) :
    Minds k o w ((w.endCall id f).removeFetch task).2 ∧
      ((w.endCall id f).removeFetch task).2.fetches.Over task := by
  have hids := removeFetch_ids task (w.endCall id f)
  have hover : ((w.endCall id f).removeFetch task).2.fetches.Over task :=
    ⟨(h.asksFor ha).2, fun hm => (hids task hm).2 rfl⟩
  refine ⟨⟨⟨?_, List.prefix_refl _, Nat.le_refl _,
    fun t ho => ⟨ho.started, fun hm => ho.gone (hids t hm).1⟩,
    fun i t s hi => ?_, fun _ m hm => hm.endCall hf,
    fun _ ht => ⟨ht.workspaceFolder, ht.activeFile, ht.tabSize⟩⟩,
    fun _ _ t hm => .inl (hids t hm).1⟩, hover⟩
  · have hend : (w.endCall id f).Fetching k := h.endCall hf
    exact { hend with numbered := fun t hm => h.numbered t (hids t hm).1 }
  · by_cases hne : i = id
    · subst hne
      obtain ⟨call, hc, hfor⟩ := ha
      obtain ⟨call', hc', hfor'⟩ := hi
      obtain rfl := Option.some.inj (hc.symm.trans hc')
      exact .inr ((hfor.inj hfor').1 ▸ hover)
    · exact .inl ((asksFor_endCall hf hne).2 hi)

end Ending

/-- What is taken from the table of what waits has settled already. -/
theorem tends_dropPending (h : w.Fetching k) {id : Nat}
    (hs : ∀ call, w.client.call? id = some call → call.status ≠ .pending) :
    Tends k o w (w.updateClient fun c => c.dropPending id) where
  fetching := h.congr rfl List.filter_sublist rfl rfl rfl rfl
  events := List.prefix_refl _
  numbers := Nat.le_refl _
  lasting _ ho := ho
  asked _ _ _ ha := .inl ha
  remembers _ m hm i call hi hc hp := by
    have hne : i ≠ id := fun he => hs call (he ▸ hc) hp
    obtain ⟨p, hp, rfl⟩ := List.mem_map.1 (hm i call hi hc hp)
    exact List.mem_map_of_mem (List.mem_filter.2 ⟨hp, by simpa using hne⟩)
  typed _ ht := ht
  started _ _ _ hm := .inl hm
  status _ ha := ha

section Running

variable (hr : run.Tends k o)

include hr

/-- A fetch that has failed is taken off the table. -/
theorem tends_fetchFailed {w₁ : World} {task : Nat}
    (hminds : Minds k o w (w₁.removeFetch task).2)
    (hstatus : w₁.assistant.status = w.assistant.status)
    (hwants : ∀ t, (w₁.removeFetch task).2.fetches.Wants t → w.fetches.Wants t) (f : Fault) :
    Tends k o w (fetchFailed run task f w₁) := by
  have hlog := (adds_record (.logged .debug ("Completion task " ++ toString task ++ " failed: " ++
    f.message)) (w₁.removeFetch task).2).idles.tends (o := o) hminds.fetching
  exact tends_reportIfIdle hr (hminds.trans hlog.toMinds) hstatus hwants

/-- What a fetch was answered with is handed on once the fetch is off the table. -/
theorem tends_fetchAnswered {w₁ : World} {task : Nat} {sink : CompletionSink}
    (hminds : Minds k o w (w₁.removeFetch task).2)
    (hstatus : w₁.assistant.status = w.assistant.status)
    (hwants : ∀ t, (w₁.removeFetch task).2.fetches.Wants t → w.fetches.Wants t)
    (hsink : k.Delivers sink) (result : CompletionResult) :
    Tends k o w (fetchAnswered run task result sink w₁).2 := by
  have hidle := tends_reportIfIdle hr hminds hstatus hwants
  have hreject : ∀ uuids : List String, Tends k o w
      (if uuids.isEmpty then reportIfIdle run (w₁.removeFetch task).2
        else (reportIfIdle run (w₁.removeFetch task).2).notifyRejected uuids) := by
    intro uuids
    split
    · exact hidle
    · exact hidle.trans ((idles_notify ..).tends hidle.fetching)
  unfold fetchAnswered
  dsimp only
  split
  · exact hreject _
  · split
    · next first rest _ _ =>
      have hrest := hreject (rest.map Completion.uuid)
      simp only [List.isEmpty_map] at hrest
      cases sink with
      | nobody => exact hrest
      | host c => exact hrest.trans (tends_callHost hr hrest.fetching hsink ..)
      | controller => exact hsink.elim
    · exact hidle

/-- The one thing that follows the outcome of a fetch's call takes the fetch off the table. -/
theorem tends_outcome {u : World} {call : Call} {task : Nat} {sink : CompletionSink}
    (hfor : call.IsFor task sink) (hminds : Minds k o w (u.removeFetch task).2)
    (hstatus : u.assistant.status = w.assistant.status)
    (hwants : ∀ t, (u.removeFetch task).2.fetches.Wants t → w.fetches.Wants t)
    (hsink : k.Delivers sink) {v : Verdict} (hv : ∀ value, v ≠ .ok (.value value)) :
    Tends k o w
      ((v.waiting call).foldl (fun w q => w.callBack (v.continueWith run q)) u) := by
  cases v with
  | error f =>
    simp only [Verdict.waiting, hfor.onError, List.foldl_cons, List.foldl_nil]
    exact .callBack (tends_fetchFailed hr hminds hstatus hwants f)
  | ok reply =>
    simp only [Verdict.waiting, hfor.onResult, List.foldl_cons, List.foldl_nil]
    cases reply with
    | value value => exact absurd rfl (hv value)
    | completions result =>
      exact .callBack (tends_fetchAnswered hr hminds hstatus hwants hsink result)

/-- The host's own callbacks for a call. -/
theorem tends_answers {v : Verdict} {qs : List Continuation} (hq : ∀ q ∈ qs, k.Answers q)
    (h : w.Fetching k) :
    Tends k o w (qs.foldl (fun w q => w.callBack (v.continueWith run q)) w) := by
  refine Tends.foldl (fun w h q hm => .callBack ?_) h
  obtain ⟨kind, c, rfl, hc⟩ := hq q hm
  cases v with
  | ok reply => exact tends_callHost hr h hc ..
  | error f => exact tends_callHost hr h hc ..

/-- A call that waits no more settles, if it has not settled yet, and a fetch it is for is over. -/
theorem tends_settleBy (h : w.Fetching k) (id : Nat) {v : Verdict}
    (hv : ∀ value, v = .ok (.value value) → ∀ task sink, ¬ w.client.AsksFor id task sink) :
    Tends k o w (settleBy run id v (w.updateClient fun c => c.dropPending id)) ∧
      ∀ task sink, w.client.AsksFor id task sink →
        (settleBy run id v (w.updateClient fun c => c.dropPending id)).fetches.Over task := by
  have hdrop : (w.updateClient fun c => c.dropPending id).client.call? id = w.client.call? id := rfl
  unfold settleBy settleCall
  rw [hdrop]
  cases hc : w.client.call? id with
  | none =>
    exact ⟨tends_dropPending h (by simp [hc]), fun _ _ ⟨_, hc', _⟩ => by simp [hc] at hc'⟩
  | some call =>
    dsimp only
    split
    · next hs =>
      refine ⟨tends_dropPending h (by simpa [hc] using hs), fun _ _ ⟨_, hc', hfor⟩ => ?_⟩
      exact absurd hfor.pending (Option.some.inj (hc.symm.trans hc') ▸ hs)
    · next hs =>
      change Tends k o w (List.foldl _ (w.endCall id (Call.settle v)) _) ∧ _
      rcases h.asks id call hc (not_not.1 hs) with ⟨task, sink, hfor, hsink, -⟩ | hplain
      · have hne : ∀ value, v ≠ .ok (.value value) := fun value he =>
          hv value he task sink ⟨call, hc, hfor⟩
        obtain ⟨hminds, hover⟩ := minds_ended (o := o) v.settling h ⟨call, hc, hfor⟩
        refine ⟨tends_outcome hr hfor hminds rfl (fun t hw => (List.mem_filter.1 hw).1) hsink hne,
          fun task' sink' ⟨call', hc', hfor'⟩ => ?_⟩
        -- what is off the table then is off it for good
        have hlater := tends_outcome (u := w.endCall id (Call.settle v)) hr hfor
          (.refl hminds.fetching) rfl (fun _ hw => hw) hsink hne
        obtain rfl := Option.some.inj (hc.symm.trans hc')
        exact (hfor.inj hfor').1 ▸ hlater.lasting task hover
      · have hnone : ∀ task sink, ¬ w.client.AsksFor id task sink := by
          rintro task sink ⟨call', hc', hfor⟩
          obtain rfl := Option.some.inj (hc.symm.trans hc')
          exact hfor.not_plain hplain
        have hend := tends_endCall (o := o) v.settling h hnone
        refine ⟨hend.trans (tends_answers hr (fun q hq => hplain q ?_) hend.fetching),
          fun task sink ha => absurd ha (hnone task sink)⟩
        cases v with
        | ok reply => exact List.mem_append_left _ hq
        | error f => exact List.mem_append_right _ hq

end Running

/-! ## Making a call -/

/-- What a call is made for: a fetch that was started, or callbacks of the host. -/
structure Occasions (k : Conduct) (w : World) (method : String) (treatment : Treatment)
    (onResult onError : List Continuation) : Prop where
  account : treatment ≠ .account
  kind : (∃ task sink, method = completionsMethod ∧ onResult = [.fetched task sink] ∧
      onError = [.fetchFailed task] ∧ treatment = .completions ∧ k.Delivers sink ∧
      task ≤ w.fetches.started) ∨ ∀ q ∈ onResult ++ onError, k.Answers q

section Making

variable {method : String} {treatment : Treatment} {onResult onError : List Continuation}
  (h : w.Fetching k) (ho : w.Occasions k method treatment onResult onError) (kind : CallKind)

include h ho

/-- A call that is for no fetch concerns no fetch. -/
theorem tends_addCall : Tends k o w (w.updateClient fun c =>
    c.addCall (.start w.client.nextId method kind onResult onError) treatment) := by
  set call := Call.start w.client.nextId method kind onResult onError with hcall
  set w₁ := w.updateClient fun c => c.addCall call treatment with hw₁
  have hnew : w₁.client.call? w.client.nextId = some call :=
    h.ledger.call?_addCall_self rfl treatment
  have hold : ∀ i, i ≠ w.client.nextId → w₁.client.call? i = w.client.call? i := fun i hi => by
    rw [hw₁, updateClient, Client.call?_addCall, if_neg (show call.id ≠ i from Ne.symm hi),
      Option.or_none]
  refine ⟨⟨⟨⟨?_, fun i c hc hp => ?_, fun p hp => ?_, h.handlers, h.statusHandler, h.subscribers,
    h.numbered⟩, List.prefix_refl _, Nat.le_refl _, fun _ ho => ho, fun i task sink ha => ?_,
    fun _ m hm i c hi hc hp => ?_, fun _ ht => ht⟩, fun _ _ _ hm => .inl hm⟩, fun _ ha => ha⟩
  · exact h.ledger.addCall _ _ _ _ _ fun he => absurd he ho.account
  · by_cases hi : i = w.client.nextId
    · obtain rfl := Option.some.inj (hnew.symm.trans (hi ▸ hc))
      refine ho.kind.imp_left ?_
      rintro ⟨task, sink, hm, hres, herr, -, hrest⟩
      exact ⟨task, sink, ⟨hm, rfl, hres, herr⟩, hrest⟩
    · exact h.asks i c (hold i hi ▸ hc) hp
  · rcases List.mem_append.1 hp with hp | hp
    · refine (h.treatments p hp).imp_right fun ht => ht.imp_right fun hn task sink ha => ?_
      have hne := Nat.ne_of_lt (h.ledger.id_lt_of_pending hp)
      exact hn task sink (by simpa only [Client.AsksFor, hold _ hne] using ha)
    · obtain rfl := List.mem_singleton.1 hp
      refine ⟨ho.account, ho.kind.imp ?_ ?_⟩
      · rintro ⟨_, _, _, _, _, ht, -⟩
        exact ht
      · rintro hplain task sink ⟨c, hc, hfor⟩
        obtain rfl := Option.some.inj (hnew.symm.trans hc)
        exact hfor.not_plain hplain
  · obtain ⟨c, hc, hfor⟩ := ha
    exact .inl ⟨c, by rw [hold i (Nat.ne_of_lt (h.ledger.lt_nextId hc))]; exact hc, hfor⟩
  · simp only [Client.pendingIds, hw₁, updateClient, Client.addCall, List.map_append,
      List.mem_append]
    by_cases he : i = w.client.nextId
    · exact .inr (List.mem_singleton.2 he)
    · exact .inl (hm i c hi (hold i he ▸ hc) hp)

omit ho in
/-- The request of a fetch is unanswered in the end, or the fetch is over. -/
theorem tends_request (hr : run.Tends k o) {method : Json} (params : Json)
    (ho : w.Occasions k method.textOrEmpty treatment onResult onError) :
    Tends k o w (request run kind method params onResult onError treatment w).2 ∧
      ∀ task sink, onResult = [.fetched task sink] →
        (request run kind method params onResult onError treatment w).2.Awaits task ∨
          (request run kind method params onResult onError treatment w).2.fetches.Over task := by
  have hmade := tends_addCall (o := o) h ho kind
  have hnew : (w.client.addCall (.start w.client.nextId method.textOrEmpty kind onResult onError)
      treatment).call? w.client.nextId = some _ := h.ledger.call?_addCall_self rfl treatment
  have hasks : ∀ task sink, onResult = [.fetched task sink] →
      (w.client.addCall (.start w.client.nextId method.textOrEmpty kind onResult onError)
        treatment).AsksFor w.client.nextId task sink := by
    rintro task sink rfl
    rcases ho.kind with ⟨task', sink', hm, hres, herr, -⟩ | hplain
    · obtain ⟨rfl, rfl⟩ : task = task' ∧ sink = sink' := by simpa using hres
      exact ⟨_, hnew, hm, rfl, rfl, herr⟩
    · obtain ⟨_, _, hq, -⟩ := hplain (.fetched task sink) (by simp)
      cases hq
  set w₁ := w.updateClient fun c =>
    c.addCall (.start w.client.nextId method.textOrEmpty kind onResult onError) treatment with hw₁
  have hsend := tends_send hr hmade.fetching
    (Message.request (.int w.client.nextId) method.textOrEmpty params).toJson
  unfold request
  dsimp only
  rw [← hw₁]
  generalize send run _ w₁ = r at hsend ⊢
  obtain ⟨_ | _, w₂⟩ := r
  · -- refused, and perhaps it was answered before that
    obtain ⟨htends, hover⟩ := tends_settleBy hr hsend.fetching w.client.nextId
      (v := .error (.response (.of .internalError
        ("Transport refused write for " ++ method.shown)))) (by simp)
    refine ⟨(hmade.trans hsend).trans htends, fun task sink hres => .inr ?_⟩
    rcases hsend.asked _ task sink (hasks task sink hres) with ha | ho
    · exact hover task sink ha
    · exact htends.lasting task ho
  · refine ⟨hmade.trans hsend, fun task sink hres => ?_⟩
    exact hsend.awaits_or_over ⟨_, sink, hasks task sink hres⟩

end Making

/-! ## The start of a fetch -/

theorem exists_of_isText {v : Json} (h : v.isText = true) : ∃ s, v = .str s := by
  cases v <;> simp [Json.isText] at h ⊢

theorem exists_of_isOk {ε α : Type} {x : Except ε α} (h : x.isOk = true) : ∃ a, x = .ok a := by
  cases x with
  | error e => cases h
  | ok a => exact ⟨a, rfl⟩

/-- With attributes that can be told the way to the active file is known. -/
theorem relativePath_typed {t : Fetches} (ht : t.Typed) : ∃ v, relativePath t = .ok v := by
  obtain ⟨folder, hfolder⟩ := exists_of_isText ht.workspaceFolder
  obtain ⟨file, hfile⟩ := exists_of_isText ht.activeFile
  unfold relativePath
  rw [hfolder, hfile]
  split
  · exact ⟨_, rfl⟩
  · exact ⟨_, rfl⟩

/-- Parameters that were given as numbers can be told. -/
theorem completionParams_typed {o : CompletionOptions} (w : World)
    (htab : o.tabSize.isNumeric = true) (hindent : o.indentSize = .null)
    (hposition : o.position.toJson.isOk = true) (hversion : o.version = .null) :
    ∃ params, completionParams o w = .ok params := by
  obtain ⟨tab, htab⟩ := exists_of_isOk htab
  obtain ⟨position, hposition⟩ := exists_of_isOk hposition
  have hnone : ∀ v, orGiven .null v = v := fun _ => rfl
  have hnumber : (Json.int w.assistant.version).toInteger = .ok (w.assistant.version : Int) := rfl
  simp [completionParams, hindent, hversion, hnone, htab, hposition, hnumber, bind, Except.bind,
    pure, Except.pure]

/-- The table and the number of a fetch that has just been started. -/
def enlist (w : World) : World :=
  w.updateFetches fun t =>
    { t with started := w.fetches.started + 1,
             underWay := t.underWay ++ [⟨w.fetches.started + 1, false⟩] }

theorem ids_enlist (w : World) :
    w.enlist.fetches.ids = w.fetches.ids ++ [w.fetches.started + 1] := by
  simp [enlist, updateFetches, Fetches.ids]

/-- A fetch that is put in the table is wanted. -/
theorem wants_enlist (w : World) : w.enlist.fetches.Wants (w.fetches.started + 1) :=
  List.mem_append_right _ List.mem_cons_self

def optionsOf (position : UncheckedPosition) (relative : Json) (t : Fetches) :
    CompletionOptions where
  position := position
  tabSize := t.tabSize
  insertSpaces := t.insertSpaces
  path := t.activeFile
  relativePath := relative
  languageId := t.languageId

/-- A fetch is entered, the activity is reported, and then it is asked for. -/
theorem startFetch_eq (run : Runner) (position : UncheckedPosition) (sink : CompletionSink)
    (w : World) : startFetch run position sink w =
      match relativePath (changeStatus run .inProgress w.enlist).fetches with
      | .error f => (.error f, changeStatus run .inProgress w.enlist)
      | .ok relative =>
        match getCompletions run
          (optionsOf position relative (changeStatus run .inProgress w.enlist).fetches) false
          [.fetched (w.fetches.started + 1) sink] [.fetchFailed (w.fetches.started + 1)]
          (changeStatus run .inProgress w.enlist) with
        | (.error f, w₂) => (.error f, w₂)
        | (.ok _, w₂) => (.ok (w.fetches.started + 1), w₂) := rfl

/-- A fetch is in the table before its request is made. -/
theorem keeps_enlist (h : w.Fetching k) : Keeps k o w w.enlist where
  fetching := { h with
    asks := fun id call hc hp => (h.asks id call hc hp).imp_left
      fun ⟨task, sink, hfor, hsink, hle⟩ => ⟨task, sink, hfor, hsink, Nat.le_succ_of_le hle⟩
    numbered := by
      rw [ids_enlist]
      rintro task hm
      rcases List.mem_append.1 hm with hm | hm
      · exact Nat.le_succ_of_le (h.numbered task hm)
      · exact Nat.le_of_eq (List.mem_singleton.1 hm) }
  events := List.prefix_refl _
  numbers := Nat.le_succ _
  lasting task ho := by
    refine ⟨Nat.le_succ_of_le ho.started, ?_⟩
    rw [ids_enlist, List.mem_append, List.mem_singleton, not_or]
    exact ⟨ho.gone, Nat.ne_of_lt (Nat.lt_succ_of_le ho.started)⟩
  asked _ _ _ ha := .inl ha
  remembers _ _ hm := hm
  typed _ ht := ⟨ht.workspaceFolder, ht.activeFile, ht.tabSize⟩

/-- What was done since a fetch was started attends to it if that fetch is asked for. -/
theorem Minds.enlisted {w₁ : World} (h : w.Fetching k) (hminds : Minds k o w.enlist w₁)
    (hasked : k.Typed → w.fetches.Typed →
      w₁.Awaits (w.fetches.started + 1) ∨ w₁.fetches.Over (w.fetches.started + 1)) :
    Minds k o w w₁ := by
  refine ⟨(keeps_enlist h).trans hminds.toKeeps, fun hk ht task hm => ?_⟩
  rcases hminds.started hk ⟨ht.workspaceFolder, ht.activeFile, ht.tabSize⟩ task hm with hm' | hw
  · rw [ids_enlist, List.mem_append, List.mem_singleton] at hm'
    rcases hm' with hm' | rfl
    · exact .inl hm'
    · exact .inr ((hasked hk ht).resolve_right fun ho => ho.gone hm)
  · exact .inr hw

section Running

variable (hr : run.Tends k o) (h : w.Fetching k)

include hr h

/-- A request for completions is tended to, and if it is for a fetch that is in the table, it is
unanswered or over. -/
theorem tends_getCompletions (options : CompletionOptions) {cycling : Bool}
    {onResult onError : List Continuation}
    (ho : w.Occasions k (askingMethod cycling) .completions onResult onError) :
    Tends k o w (getCompletions run options cycling onResult onError w).2 ∧
      ∀ task sink, onResult = [.fetched task sink] →
        (∃ params, completionParams options w = .ok params) →
        (getCompletions run options cycling onResult onError w).2.Awaits task ∨
          (getCompletions run options cycling onResult onError w).2.fetches.Over task := by
  unfold getCompletions
  cases hparams : completionParams options w with
  | error f => exact ⟨.refl h, fun _ _ _ ⟨_, hp⟩ => by cases hp⟩
  | ok params =>
    have hname : (Json.str (askingMethod cycling)).textOrEmpty = askingMethod cycling := by
      cases cycling <;> rfl
    have ho' : w.Occasions k (Json.str (askingMethod cycling)).textOrEmpty .completions onResult
        onError := hname.symm ▸ ho
    have hrequest := tends_request h .query hr params ho'
    exact ⟨hrequest.1, fun task sink hres _ => hrequest.2 task sink hres⟩

/-- A fetch is put in the table and asked for; if its request is refused it is over at once. -/
theorem tends_startFetch {position : UncheckedPosition} {sink : CompletionSink}
    (hposition : k.Typed → position.toJson.isOk = true) (hsink : k.Delivers sink) :
    Tends k o w (startFetch run position sink w).2 := by
  have hstart := keeps_enlist (o := o) h
  have hreport := minds_changeStatus hr hstart.fetching .inProgress
  have hagrees := agrees_changeStatus hr hstart.fetching (s := .inProgress)
    ⟨fun _ => ⟨_, wants_enlist w⟩, fun _ => rfl⟩
  have htyped : k.Typed → w.fetches.Typed →
      (changeStatus run .inProgress w.enlist).fetches.Typed := fun hk ht =>
    hreport.typed hk (hstart.typed hk ht)
  have hnumber := hreport.numbers
  -- if nothing comes in between, what follows the report is all that is left
  have hrest : ∀ {w₂}, Tends k o (changeStatus run .inProgress w.enlist) w₂ →
      (k.Typed → w.fetches.Typed → w₂.Awaits (w.fetches.started + 1) ∨
        w₂.fetches.Over (w.fetches.started + 1)) → Tends k o w w₂ := fun hlast hasked =>
    ⟨.enlisted h (hreport.trans hlast.toMinds) hasked, fun hu _ =>
      hlast.status hu (hagrees (hu.of_prefix hlast.events))⟩
  rw [startFetch_eq]
  generalize changeStatus run .inProgress w.enlist = w₁ at *
  cases hpath : relativePath w₁.fetches with
  | error f =>
    refine hrest (.refl hreport.fetching) fun hk ht => ?_
    obtain ⟨v, hv⟩ := relativePath_typed (htyped hk ht)
    cases hpath.symm.trans hv
  | ok relative =>
    have hoccasion : w₁.Occasions k (askingMethod false) .completions
        [.fetched (w.fetches.started + 1) sink] [.fetchFailed (w.fetches.started + 1)] :=
      ⟨nofun, .inl ⟨_, sink, rfl, rfl, rfl, rfl, hsink, hnumber⟩⟩
    have hasks := tends_getCompletions hr hreport.fetching
      (optionsOf position relative w₁.fetches) hoccasion
    have hlast := hrest hasks.1 fun hk ht => hasks.2 _ sink rfl
      (completionParams_typed w₁ (htyped hk ht).tabSize rfl (hposition hk) rfl)
    dsimp only
    generalize getCompletions run _ false _ _ w₁ = r at hlast ⊢
    obtain ⟨_ | _, w₂⟩ := r
    · exact hlast
    · exact hlast

end Running

end World

end GhostText
