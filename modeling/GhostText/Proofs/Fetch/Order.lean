import GhostText.Proofs.Fetch.Reading

/-!
# Fetches in order

A fetch is wanted until it is given up. Where the scripts of a host ask for no completion they only
take away: fetches are given up, and calls settle or are given up. So what the controller sees to
when it starts a fetch, that no other one is wanted, holds until it starts the next one.
-/

namespace GhostText

/-! ## What only becomes less -/

namespace Client

def taskOf? (id : Nat) (c : Client) : Option Nat := (c.call? id).bind Call.task?

def Asked (c : Client) (id : Nat) : Prop :=
  ∃ call, c.call? id = some call ∧ call.method = completionsMethod

/-- No fetch comes to wait for a call, and no completions are asked for. -/
structure Wanes (c c' : Client) : Prop where
  tasks : ∀ id task, c'.taskOf? id = some task → c.taskOf? id = some task
  asked : ∀ id, c'.Asked id → c.Asked id
  made : c.nextId ≤ c'.nextId

variable {c c' c'' : Client}

theorem Wanes.of_calls (h : c'.calls = c.calls) : c.Wanes c' := by
  have hcall : ∀ id, c'.call? id = c.call? id := fun id => by simp only [call?, h]
  refine ⟨fun id task ht => ?_, fun id ha => ?_, by simp only [nextId, h, Nat.le_refl]⟩
  · rwa [taskOf?, hcall] at ht
  · rwa [Asked, hcall] at ha

theorem Wanes.trans (h : c.Wanes c') (h' : c'.Wanes c'') : c.Wanes c'' :=
  ⟨fun id task ht => h.tasks id task (h'.tasks id task ht),
    fun id ha => h.asked id (h'.asked id ha), Nat.le_trans h.made h'.made⟩

/-- One call changes, and no fetch comes to wait for it. -/
theorem Wanes.updateCall {f : Call → Call} (id : Nat) (hid : ∀ call, (f call).id = call.id)
    (htask : ∀ call task, (f call).task? = some task → call.task? = some task)
    (hmethod : ∀ call, (f call).method = call.method) : c.Wanes (c.updateCall id f) := by
  refine ⟨fun i task ht => ?_, fun i ha => ?_, by simp⟩
  · rw [taskOf?, call?_updateCall hid] at ht
    split at ht
    · cases hc : c.call? i with
      | none => simp [hc] at ht
      | some call => simpa [taskOf?, hc] using htask call task (by simpa [hc] using ht)
    · exact ht
  · obtain ⟨call, hc, hm⟩ := ha
    rw [call?_updateCall hid] at hc
    split at hc
    · obtain ⟨call₀, hc₀, rfl⟩ := Option.map_eq_some_iff.1 hc
      exact ⟨call₀, hc₀, (hmethod call₀).symm.trans hm⟩
    · exact ⟨call, hc, hm⟩

/-- What one more call adds. -/
theorem taskOf?_addCall {call : Call} (hl : c.Ledger) (hid : call.id = c.nextId) (t : Treatment)
    (i : Nat) :
    (c.addCall call t).taskOf? i = if i = c.nextId then call.task? else c.taskOf? i := by
  split
  · next hi => rw [hi, taskOf?, hl.call?_addCall_self hid, Option.bind_some]
  · next hi =>
    rw [taskOf?, call?_addCall, if_neg (by rw [hid]; exact Ne.symm hi), Option.or_none, taskOf?]

/-- What is asked for once a call is made was asked for before, or is that call. -/
theorem asked_addCall {call : Call} (hl : c.Ledger) (hid : call.id = c.nextId) {t : Treatment}
    {i : Nat} (h : (c.addCall call t).Asked i) :
    i = c.nextId ∧ call.method = completionsMethod ∨ c.Asked i := by
  obtain ⟨found, hc, hm⟩ := h
  by_cases hi : i = c.nextId
  · subst hi
    rw [hl.call?_addCall_self hid] at hc
    obtain rfl := Option.some.inj hc
    exact Or.inl ⟨rfl, hm⟩
  · rw [call?_addCall, if_neg (by rw [hid]; exact Ne.symm hi), Option.or_none] at hc
    exact Or.inr ⟨found, hc, hm⟩

/-- A call that was made has an identifier below the next one. -/
theorem Ledger.lt_of_asked (h : c.Ledger) {id : Nat} (ha : c.Asked id) : id < c.nextId := by
  obtain ⟨call, hc, -⟩ := ha
  exact h.lt_nextId hc

end Client

/-- A call that settles or is given up is for no fetch any more. -/
theorem Settling.task?_eq_none {f : Call → Call} (h : Settling f) (c : Call) :
    (f c).task? = none := (h.fetchesNothing c).task?_eq_none

variable {k : Regime}

/-- A step in which nothing is asked for leaves no more to be answered. -/
theorem ClientStep.wanes {late : Prop} {c c' : Client} (h : ClientStep k late c c')
    (hl : c.Ledger) (ha : ¬ k.asks) : c.Wanes c' := by
  cases h with
  | aside calls _ _ => exact .of_calls calls
  | handlers _ => exact .of_calls rfl
  | @make method kind onResult onError treatment admits =>
    have hplain : (Call.start c.nextId method kind onResult onError).FetchesNothing :=
      admits.fetch.resolve_right fun ⟨_, _, asks, _⟩ => ha asks
    refine ⟨fun id task ht => ?_, fun id hasked => ?_, ?_⟩
    · rw [Client.taskOf?_addCall hl rfl] at ht
      split at ht
      · simp [hplain.task?_eq_none] at ht
      · exact ht
    · exact (Client.asked_addCall hl rfl hasked).resolve_left fun h => ha (admits.asked h.2)
    · simp [Client.nextId, Client.addCall]
  | @settle p f _ settling =>
    have hdrop : c.Wanes (c.dropPending p.id) := .of_calls rfl
    exact hdrop.trans (.updateCall _ settling.id
      (fun call task ht => by simp [settling.task?_eq_none] at ht) settling.method)
  | take _ _ => exact .of_calls rfl
  | settleTaken _ _ _ _ _ settling =>
    exact .updateCall _ settling.id
      (fun call task ht => by simp [settling.task?_eq_none] at ht) settling.method
  | await onResult onError _ plain =>
    refine .updateCall _ (fun _ => rfl) (fun call task ht => ?_) fun _ => rfl
    -- what is added last ends no fetch, also where nothing waited before
    unfold Call.task? at ht ⊢
    simp only [Call.await] at ht
    cases hres : call.onResult with
    | nil =>
      rw [hres, List.nil_append] at ht
      split at ht
      · next task' sink qs he =>
        simpa [Continuation.isOfFetch] using plain (.fetched task' sink) (by simp)
      · cases ht
    | cons q qs => cases q <;> simp_all
  | cancel _ _ =>
    refine Client.Wanes.trans (.updateCall _ (f := Call.cancel) (fun _ => rfl) ?_ fun _ => rfl)
      (.of_calls rfl)
    simp [Call.task?, Call.cancel]
  | disconnect => exact .of_calls rfl

namespace Fetches

def Wants (t : Fetches) (id : Nat) : Prop := ⟨id, false⟩ ∈ t.underWay

instance (t : Fetches) (id : Nat) : Decidable (t.Wants id) :=
  inferInstanceAs (Decidable (⟨id, false⟩ ∈ t.underWay))

/-- Fetches may be given up, and nothing else happens to them. -/
structure Wanes (t t' : Fetches) : Prop where
  started : t'.started = t.started
  ids : t'.ids = t.ids
  wanted : ∀ id, t'.Wants id → t.Wants id

variable {t t' t'' : Fetches}

theorem Wanes.of_underWay (started : t'.started = t.started) (h : t'.underWay = t.underWay) :
    t.Wanes t' :=
  ⟨started, by simp only [Fetches.ids, h], fun id hw => by rwa [Wants, h] at hw⟩

theorem Wanes.trans (h : t.Wanes t') (h' : t'.Wanes t'') : t.Wanes t'' :=
  ⟨h'.started.trans h.started, h'.ids.trans h.ids, fun id hw => h.wanted id (h'.wanted id hw)⟩

/-- Some fetches are given up. -/
theorem Wanes.giveUp (p : Fetch → Prop) [DecidablePred p] (t : Fetches) :
    t.Wanes { t with
      underWay := t.underWay.map fun f => if p f then { f with cancelled := true } else f } := by
  refine ⟨rfl, ?_, fun id hw => ?_⟩
  · simp only [Fetches.ids, List.map_map]
    refine List.map_congr_left fun f _ => ?_
    simp only [Function.comp_apply]
    split <;> rfl
  · obtain ⟨f, hf, he⟩ := List.mem_map.1 hw
    split at he
    · simp at he
    · rwa [he] at hf

/-- After all were given up none is wanted. -/
theorem not_wants_giveUpAll (t : Fetches) (id : Nat) :
    ¬ Wants { t with underWay := t.underWay.map fun f => { f with cancelled := true } } id := by
  intro hw
  obtain ⟨f, -, he⟩ := List.mem_map.1 hw
  simp at he

/-- What is in the table and not wanted was given up. -/
theorem cancelled_of_not_wants {id : Nat} (hid : id ∈ t.ids) (h : ¬ t.Wants id) :
    (t.underWay.any fun f => f.id = id && f.cancelled) = true := by
  obtain ⟨f, hf, rfl⟩ := List.mem_map.1 hid
  refine List.any_eq_true.2 ⟨f, hf, ?_⟩
  by_contra hc
  refine h ?_
  simp only [decide_true, Bool.true_and, Bool.not_eq_true] at hc
  rw [Wants, ← hc]
  exact hf

end Fetches

/-- A step in which nothing is asked for leaves no more fetches wanted. -/
theorem FetchStep.wanes {t t' : Fetches} (h : FetchStep k t t') (ha : ¬ k.asks) : t.Wanes t' := by
  cases h with
  | start asked => exact absurd asked ha
  | finish _ asked => exact absurd asked ha
  | cancel id => exact .giveUp (fun f => (f.id : Int) = id) t
  | cancelAll => simpa using Fetches.Wanes.giveUp (fun _ => True) t
  | _ => exact .of_underWay rfl rfl

/-- Fetches may be given up and calls may settle, and nothing is asked for. -/
structure World.Wanes (w w' : World) : Prop where
  client : w.client.Wanes w'.client
  fetches : w.fetches.Wanes w'.fetches

variable {w w' w'' : World}

theorem World.Wanes.of_eq (client : w'.client = w.client) (fetches : w'.fetches = w.fetches) :
    w.Wanes w' :=
  ⟨.of_calls (by rw [client]), .of_underWay (by rw [fetches]) (by rw [fetches])⟩

theorem World.Wanes.trans (h : w.Wanes w') (h' : w'.Wanes w'') : w.Wanes w'' :=
  ⟨h.client.trans h'.client, h.fetches.trans h'.fetches⟩

/-- Where nothing is asked for every step only takes away. -/
theorem Step.wanes (h : Step k w w') (hl : w.client.Ledger) (ha : ¬ k.asks) : w.Wanes w' := by
  cases h with
  | client step => exact ⟨step.wanes hl ha, .of_underWay rfl rfl⟩
  | fetches step => exact ⟨.of_calls rfl, step.wanes ha⟩
  | session step => exact .of_eq step.beside.client step.beside.fetches
  | document step => exact .of_eq step.informs.client step.informs.fetches
  | _ => exact .of_eq rfl rfl

/-- Along a row of steps in which nothing is asked for everything becomes less. -/
theorem Steps.wanes (h : Steps k w w') (hs : k.Sound w) (ha : ¬ k.asks) : w.Wanes w' := by
  induction h with
  | refl => exact .of_eq rfl rfl
  | tail steps step ih => exact ih.trans (step.wanes (Steps.sound steps hs).ledger ha)

/-! ## The order of the fetches -/

namespace World

/-- Of the fetches that wait for calls below a number none is wanted, but perhaps some that are
spared. -/
def Bygone (w : World) (m : Nat) (spared : Nat → Prop) : Prop :=
  ∀ id < m, ∀ task, w.client.taskOf? id = some task → w.fetches.Wants task → spared task

/-- Only the fetch that was started last may be wanted, and once completions were asked for no fetch
is wanted any more that was asked for before. The calls below a number are bygone too, but for the
fetches that are spared. -/
structure InOrder (m : Nat) (spared : Nat → Prop) (w : World) : Prop where
  fresh : ∀ id ∈ w.fetches.ids, id ≤ w.fetches.started
  nodup : w.fetches.ids.Nodup
  newest : ∀ id, w.fetches.Wants id → id = w.fetches.started
  tabled : ∀ id task, w.client.taskOf? id = some task → task ∈ w.fetches.ids
  apart : ∀ i j task, w.client.taskOf? i = some task → w.client.taskOf? j = some task → i = j
  bygone : ∀ id, w.client.Asked id → w.Bygone id fun _ => False
  made : m ≤ w.client.nextId
  before : w.Bygone m spared

variable {m : Nat} {spared : Nat → Prop}

/-- A fetch that is given up stays so. -/
theorem Bygone.wanes (hb : w.Bygone m spared) (h : w.Wanes w') : w'.Bygone m spared :=
  fun id hid task ht hw =>
    hb id hid task (h.client.tasks id task ht) (h.fetches.wanted task hw)

/-- What becomes less stays in order. -/
theorem InOrder.wanes (ho : w.InOrder m spared) (h : w.Wanes w') : w'.InOrder m spared where
  fresh := by
    rw [h.fetches.ids, h.fetches.started]
    exact ho.fresh
  nodup := h.fetches.ids ▸ ho.nodup
  newest id hw := h.fetches.started ▸ ho.newest id (h.fetches.wanted id hw)
  tabled id task ht := h.fetches.ids ▸ ho.tabled id task (h.client.tasks id task ht)
  apart i j task hi hj := ho.apart i j task (h.client.tasks i task hi) (h.client.tasks j task hj)
  bygone id ha := (ho.bygone id (h.client.asked id ha)).wanes h
  made := Nat.le_trans ho.made h.client.made
  before := ho.before.wanes h

/-- At any point every call that was made is bygone, but for the fetches that are wanted there. -/
theorem InOrder.spare (ho : w.InOrder m spared) :
    w.InOrder w.client.nextId w.fetches.Wants :=
  { ho with made := Nat.le_refl _, before := fun _ _ _ _ hw => hw }

/-- No fetch is wanted any more than one that waits for no call yet. -/
structure Unasked (w : World) : Prop where
  tabled : w.fetches.started ∈ w.fetches.ids
  unasked : ∀ id, w.client.taskOf? id ≠ some w.fetches.started

theorem Unasked.wanes (hu : w.Unasked) (h : w.Wanes w') : w'.Unasked := by
  refine ⟨?_, fun id ht => ?_⟩
  · rw [h.fetches.started, h.fetches.ids]
    exact hu.tabled
  · rw [h.fetches.started] at ht
    exact hu.unasked id (h.client.tasks id _ ht)

/-- A fetch is started where none is wanted. -/
theorem InOrder.start (ho : w.InOrder m spared) (h : ∀ id, ¬ w.fetches.Wants id) {w' : World}
    (hc : w'.client = w.client) (hs : w'.fetches.started = w.fetches.started + 1)
    (hu : w'.fetches.underWay = w.fetches.underWay ++ [⟨w.fetches.started + 1, false⟩]) :
    w'.InOrder m spared ∧ w'.Unasked := by
  have hids : w'.fetches.ids = w.fetches.ids ++ [w.fetches.started + 1] := by
    simp [Fetches.ids, hu]
  have hwants : ∀ id, w'.fetches.Wants id → id = w.fetches.started + 1 := by
    intro id hw
    rw [Fetches.Wants, hu, List.mem_append, List.mem_singleton] at hw
    exact hw.elim (fun hw => absurd hw (h id)) fun he => congrArg Fetch.id he
  have hnew : w.fetches.started + 1 ∉ w.fetches.ids := fun hm =>
    absurd (ho.fresh _ hm) (Nat.not_succ_le_self _)
  -- what waits for a call was started before
  have hbygone : ∀ n p, w'.Bygone n p := by
    intro n p id _ task ht hw
    rw [hc] at ht
    exact absurd (ho.tabled id task ht) fun hm => hnew (hwants task hw ▸ hm)
  refine ⟨⟨?_, ?_, ?_, ?_, ?_, fun id _ => hbygone id _, hc ▸ ho.made, hbygone m _⟩, ?_, ?_⟩
  · rw [hids, hs]
    intro id hid
    rcases List.mem_append.1 hid with hid | hid
    · exact Nat.le_succ_of_le (ho.fresh id hid)
    · exact Nat.le_of_eq (List.mem_singleton.1 hid)
  · rw [hids]
    refine List.nodup_append.2 ⟨ho.nodup, List.nodup_singleton _, fun a ha b hb he => ?_⟩
    exact hnew (List.mem_singleton.1 hb ▸ he ▸ ha)
  · exact fun id hw => (hwants id hw).trans hs.symm
  · rw [hc, hids]
    exact fun id task ht => List.mem_append_left _ (ho.tabled id task ht)
  · rw [hc]
    exact ho.apart
  · rw [hids, hs]
    exact List.mem_append_right _ List.mem_cons_self
  · rw [hc, hs]
    exact fun id ht => hnew (ho.tabled id _ ht)

/-- Completions are asked for with the fetch that was started last. -/
theorem InOrder.ask (ho : w.InOrder m spared) (hu : w.Unasked) (hl : w.client.Ledger) {call : Call}
    (hid : call.id = w.client.nextId) (htask : call.task? = some w.fetches.started)
    (t : Treatment) : (w.updateClient fun c => c.addCall call t).InOrder m spared := by
  set w₁ := w.updateClient fun c => c.addCall call t with hw₁
  have htaskOf : ∀ i, w₁.client.taskOf? i =
      if i = w.client.nextId then some w.fetches.started else w.client.taskOf? i := fun i =>
    (Client.taskOf?_addCall hl hid t i).trans (by rw [htask])
  have hbygone : ∀ n ≤ w.client.nextId, ∀ p, w.Bygone n p → w₁.Bygone n p := by
    intro n hn p hb i hi task ht
    rw [htaskOf, if_neg (Nat.ne_of_lt (Nat.lt_of_lt_of_le hi hn))] at ht
    exact hb i hi task ht
  refine { ho with
    tabled := fun i task ht => ?_, apart := fun i j task hi hj => ?_, bygone := fun i ha => ?_,
    made := ?_, before := hbygone m ho.made spared ho.before }
  · rw [htaskOf] at ht
    split at ht
    · exact Option.some.inj ht ▸ hu.tabled
    · exact ho.tabled i task ht
  · rw [htaskOf] at hi hj
    split at hi <;> split at hj
    · next hi' hj' => exact hi'.trans hj'.symm
    · exact absurd (Option.some.inj hi ▸ hj) (hu.unasked j)
    · exact absurd (Option.some.inj hj ▸ hi) (hu.unasked i)
    · exact ho.apart i j task hi hj
  · rcases Client.asked_addCall hl hid ha with ⟨rfl, -⟩ | ha
    · -- the fetch that may be wanted waited for no call
      refine hbygone _ (Nat.le_refl _) _ fun j _ task ht hw => ?_
      exact hu.unasked j (ho.newest task hw ▸ ht)
    · exact hbygone i (Nat.le_of_lt (hl.lt_of_asked ha)) _ (ho.bygone i ha)
  · exact Nat.le_trans ho.made (by simp [hw₁, updateClient, Client.nextId, Client.addCall])

/-- A fetch for which no call waits is taken off the table. -/
theorem InOrder.finish (ho : w.InOrder m spared) {task : Nat}
    (h : ∀ id, w.client.taskOf? id ≠ some task) : (w.removeFetch task).2.InOrder m spared := by
  have hmem : ∀ f, f ∈ (w.removeFetch task).2.fetches.underWay →
      f ∈ w.fetches.underWay := fun f hf => (List.mem_filter.1 hf).1
  have hwants : ∀ id, (w.removeFetch task).2.fetches.Wants id → w.fetches.Wants id :=
    fun id hw => hmem _ hw
  have hids : (w.removeFetch task).2.fetches.ids.Sublist w.fetches.ids :=
    (List.filter_sublist ..).map Fetch.id
  refine { ho with
    fresh := fun id hid => ho.fresh id (hids.subset hid), nodup := hids.nodup ho.nodup,
    newest := fun id hw => ho.newest id (hwants id hw), tabled := fun id t ht => ?_,
    bygone := fun id ha i hi t ht hw => ho.bygone id ha i hi t ht (hwants t hw),
    before := fun i hi t ht hw => ho.before i hi t ht (hwants t hw) }
  obtain ⟨f, hf, rfl⟩ := List.mem_map.1 (ho.tabled id t ht)
  refine List.mem_map_of_mem (List.mem_filter.2 ⟨hf, ?_⟩)
  simpa using fun he : f.id = task => h id (he ▸ ht)

/-- At most one fetch is wanted. -/
theorem InOrder.length_wanted (ho : w.InOrder m spared) :
    (w.fetches.underWay.filter fun f => !f.cancelled).length ≤ 1 := by
  have hnewest : ∀ f ∈ w.fetches.underWay.filter (fun f => !f.cancelled),
      f.id = w.fetches.started := by
    intro f hf
    obtain ⟨hf, hc⟩ := List.mem_filter.1 hf
    refine ho.newest f.id ?_
    have he : (⟨f.id, false⟩ : Fetch) = f := by
      cases f
      simp_all
    rw [Fetches.Wants, he]
    exact hf
  have hnodup : ((w.fetches.underWay.filter fun f => !f.cancelled).map Fetch.id).Nodup :=
    ((List.filter_sublist ..).map Fetch.id).nodup ho.nodup
  generalize w.fetches.underWay.filter (fun f => !f.cancelled) = l at hnewest hnodup
  match l with
  | [] => simp
  | [_] => simp
  | f :: g :: l =>
    simp only [List.map_cons, List.nodup_cons, List.mem_cons] at hnodup
    refine absurd (Or.inl ?_) hnodup.1
    rw [hnewest f List.mem_cons_self, hnewest g (List.mem_cons_of_mem f List.mem_cons_self)]

/-- At the beginning there is nothing that could be out of order. -/
theorem Fresh.inOrder {k : Conduct} {t : Transport} (h : w.Fresh k t) : w.InOrder 0 spared := by
  have htask : ∀ id, w.client.taskOf? id = none := fun id => by
    simp [Client.taskOf?, Client.call?, h.calls]
  refine ⟨?_, ?_, ?_, ?_, ?_, ?_, Nat.zero_le _, by simp [Bygone]⟩
  · simp [Fetches.ids, h.fetches]
  · simp [Fetches.ids, h.fetches]
  · simp [Fetches.Wants, h.fetches]
  · simp [htask]
  · simp [htask]
  · simp [Bygone, htask]

end World

end GhostText
