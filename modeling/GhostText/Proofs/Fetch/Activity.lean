import GhostText.Proofs.Fetch.Attending

/-!
# Activity and outstanding requests

At the beginning of a run there are no fetches and there is no activity. From there on there is
activity exactly while a fetch is wanted, as long as nobody else gives a status, and every fetch in
the table has a request that is unanswered. While the connection stays that request waits for its
answer; a connection that is given up forgets it, and the fetch stays.
-/

namespace GhostText

/-- The host itself may give up the connection at any time, and go on after that. -/
def Conduct.Reconnects (k : Conduct) : List Action → World → Prop
  | [], _ => True
  | a :: rest, w => (a.closes ∨ k.Fits w.client.nextId a) ∧ k.Reconnects rest (World.act a w).2

theorem Conduct.reconnects_ofKind {kind : Action → Bool} {actions : List Action}
    (h : ∀ a ∈ actions, a.closes ∨ (kind a && a.inner.isEmpty)) (w : World) :
    (Conduct.ofKind kind).Reconnects actions w := by
  induction actions generalizing w with
  | nil => trivial
  | cons a actions ih =>
    rw [List.forall_mem_cons] at h
    exact ⟨h.1.imp_right fun ha => fits_ofKind ha _, ih h.2 _⟩

namespace World

variable {k : Conduct} {o : Prop} {w w' : World}

/-! ## Whole runs -/

/-- A run of the host tends to its fetches. -/
theorem tends_after (hk : k.Tends) (hstays : o → k.StaysOpen) (h : w.Fetching k)
    {actions : List Action} (ht : k.Takes actions w) : Tends k o w (w.after actions) := by
  induction actions generalizing w with
  | nil => exact .refl h
  | cons a actions ih =>
    have hact := tends_act hk hstays h ht.1
    exact hact.trans (ih hact.fetching ht.2)

/-- The tables are in step, and so is the status if the server gave none. -/
structure InStep (k : Conduct) (w : World) : Prop where
  fetching : w.Fetching k
  typed : k.Typed → w.fetches.Typed
  asked : k.Typed → ∀ task ∈ w.fetches.ids, w.Awaits task
  status : w.OwnStatus → w.Agrees

theorem InStep.tends (h : w.InStep k) (ht : Tends k o w w') : w'.InStep k where
  fetching := ht.fetching
  typed hk := ht.typed hk (h.typed hk)
  asked hk task hm := by
    rcases ht.started hk (h.typed hk) task hm with hm' | ha
    · exact (ht.awaits_or_over (h.asked hk task hm')).resolve_right fun ho => ho.gone hm
    · exact ha
  status hu := ht.status hu (h.status (hu.of_prefix ht.events))

/-! ## The beginning -/

/-- There was no activity yet, and fetches tell the server what they are to tell. -/
structure Idle (w : World) : Prop where
  status : w.assistant.status = .warning
  handlers : w.client.handlers.StatusHandled
  typed : w.fetches.Typed

theorem Idle.withHandlers (h : w.Idle) (setup : ClientSetup) : (w.withHandlers setup).Idle := by
  refine withHandlers_keeps (fun e _ w h => ?_) (fun e _ w h =>
    ⟨h.status, statusHandled_setNotification h.handlers e.1 e.2, h.typed⟩) h
  obtain ⟨w₁, ⟨es, rfl, -⟩, he⟩ := handleRequests_eq e.1 e.2 w
  rw [he]
  exact ⟨h.status, statusHandled_setRequest h.handlers e.1 e.2, h.typed⟩

/-- A run begins without fetches and without activity. -/
theorem Begins.idle {t : Transport} {setup : ClientSetup} (h : Begins t setup w) : w.Idle := by
  refine h.keeps (fun _ _ _ => ⟨rfl, fun method hm => ?_, ⟨rfl, rfl, rfl⟩⟩)
    (fun _ _ => ⟨rfl, fun method hm => ?_, ⟨rfl, rfl, rfl⟩⟩) (fun _ h => h.withHandlers setup)
    (fun _ _ h => ⟨h.status, h.handlers, h.typed⟩)
    (fun _ _ _ _ _ h => ⟨h.status, h.handlers, ⟨rfl, rfl, rfl⟩⟩)
    fun _ _ h => ⟨h.status, h.handlers, h.typed⟩
  · simp [bare, Client.start, Handlers.empty] at hm
  · simpa [withServerHandlers, updateClient, statusMethod] using hm

/-- At the beginning of a run the tables are in step. -/
theorem Begins.inStep {t : Transport} {setup : ClientSetup} (h : Begins t setup w)
    (equips : k.Equips setup) : w.InStep k := by
  have hfresh := h.fresh equips
  have hidle := h.idle
  have hids : w.fetches.ids = [] := by simp [Fetches.ids, hfresh.fetches]
  refine ⟨⟨hfresh.sound.ledger, ?_, ?_, hfresh.handlers, hidle.handlers, ?_, ?_⟩,
    fun _ => hidle.typed, ?_, fun _ => ?_⟩
  · simp [Client.call?, hfresh.calls]
  · simp [hfresh.pending]
  · simp [hfresh.host, Host.start]
  · simp [hids]
  · simp [hids]
  · simp [Agrees, hidle.status, Fetches.Wants, hfresh.fetches]

/-! ## The activity -/

/-- In every run of a host that starts and gives up fetches, reads what the server sends and does
whatever else concerns neither an account nor the status: as long as the server gives no status of
its own there is activity exactly while a fetch is wanted; a fetch in the table has a request that
was neither answered nor refused; and one whose request was is in the table no more. -/
theorem activity_iff_wanted {t : Transport} {setup : ClientSetup} {actions : List Action}
    (begins : Begins t setup w) (equips : k.Equips setup) (tends : k.Tends)
    (takes : k.Takes actions w) :
    let w' := w.after actions
    (w'.OwnStatus → (w'.assistant.status = .inProgress ↔ ∃ task, w'.fetches.Wants task)) ∧
    (k.Typed → ∀ task ∈ w'.fetches.ids, w'.Awaits task) ∧
    ∀ before rest, actions = before ++ rest → ∀ id task sink,
      (w.after before).client.AsksFor id task sink → w'.Settled id → task ∉ w'.fetches.ids := by
  intro w'
  have hbegin := begins.inStep equips
  have hstep := hbegin.tends (tends_after (o := False) tends nofun hbegin.fetching takes)
  refine ⟨hstep.status, hstep.asked, fun before rest he id task sink ha hs => ?_⟩
  subst he
  obtain ⟨hbefore, hrest⟩ := Conduct.takes_append.1 takes
  have hmid := tends_after (o := False) tends nofun hbegin.fetching hbefore
  have hlast := tends_after (o := False) tends nofun hmid.fetching hrest
  rw [← after_append] at hlast
  rcases hlast.asked id task sink ha with ⟨call, hc, hfor⟩ | ho
  · obtain ⟨call', hc', hsettled⟩ := hs
    obtain rfl := Option.some.inj (hc.symm.trans hc')
    exact absurd hfor.pending hsettled
  · exact ho.gone

/-- Two fetches are started and the first is given up; the answer to the second cannot be read, so
only the first is left in the table, and there is no activity. -/
theorem activity_iff_wanted_unreadable :
    let t : Transport := ⟨true, [], .atOnce, false, []⟩
    let start : Action := .task (.start ⟨.int 0, .int 0⟩ none)
    let unreadable : Action := .client (.receive (Frame.encode (Message.response (.int 2)
      (.obj [("completions", .int 0)]) none).toJson))
    let actions : List Action := [start, start, .task (.cancel (.int 1)), unreadable]
    ∃ w, startEditing 1 t ⟨.null, .null, [], []⟩ ⟨.str "ab", .str "/a.txt", .null, .lf⟩
        none none none none = .ok w ∧
      (w.after [start]).assistant.status = .inProgress ∧ (w.after [start]).fetches.Wants 1 ∧
      (w.after actions).OwnStatus ∧ (w.after actions).assistant.status = .normal ∧
      (w.after actions).fetches.ids = [1] ∧ (¬ ∃ task, (w.after actions).fetches.Wants task) ∧
      (w.after actions).Awaits 1 := by
  intro t start unreadable actions
  let k := Conduct.ofKind fun a => a.tends && a.isTyped
  have begins : Begins t ⟨.null, .null, [], []⟩ _ :=
    .assistant 1 ⟨.str "ab", .str "/a.txt", .null, .lf⟩ none none none none rfl
  have tends : k.Tends := fun a ha => (Bool.and_eq_true_iff.1 ha).1
  have typed : k.Typed := fun a ha => (Bool.and_eq_true_iff.1 ha).2
  have takes : ∀ w, k.Takes actions w := Conduct.takes_ofKind (by decide +kernel)
  have hrun := activity_iff_wanted begins (by simp [Conduct.Equips]) tends (takes _)
  exact ⟨_, rfl, by decide +kernel, by decide +kernel, by decide +kernel, by decide +kernel,
    by decide +kernel,
    fun hw => absurd ((hrun.1 (by decide +kernel)).2 hw) (by decide +kernel),
    hrun.2.1 typed 1 (by decide +kernel)⟩

/-! ## Requests that are outstanding -/

/-- The end of a connection forgets the requests of fetches, but not the fetches. -/
theorem tends_closing (h : w.Fetching k) {a : Action} (hc : a.closes) :
    Tends k False w (act a w).2 := by
  unfold Action.closes at hc
  split at hc
  · exact tends_closeClient h not_false
  · have hnoted := (idles_record .transportStopped w).tends (o := False) h
    exact hnoted.trans (tends_closeClient hnoted.fetching not_false)
  · cases hc

/-- Over every end of a connection the activity agrees with the fetches that are wanted. -/
theorem InStep.reconnects (h : w.InStep k) (tends : k.Tends) {actions : List Action}
    (ha : k.Reconnects actions w) : (w.after actions).InStep k := by
  induction actions generalizing w with
  | nil => exact h
  | cons a actions ih =>
    refine ih (h.tends (o := False) ?_) ha.2
    exact ha.1.elim (tends_closing h.fetching) (tends_act tends nofun h.fetching)

/-- In every such run, whenever the connection was given up, the request of every fetch in the
table is unanswered, and it waits for its answer if it was made since. So, if the server gives no
status of its own, activity means that such a request is unanswered. Where the connection was never
given up it waits in any case, as no call was made before the beginning. -/
theorem wanted_outstanding {t : Transport} {setup : ClientSetup} {before actions : List Action}
    (begins : Begins t setup w) (equips : k.Equips setup) (tends : k.Tends) (typed : k.Typed)
    (stays : k.StaysOpen) (earlier : k.Reconnects before w)
    (takes : k.Takes actions (w.after before)) :
    let w' := w.after (before ++ actions)
    (∀ task ∈ w'.fetches.ids, ∃ id sink, w'.client.AsksFor id task sink ∧
      ((w.after before).client.call? id = none → id ∈ w'.client.pendingIds)) ∧
    (w'.OwnStatus → w'.assistant.status = .inProgress → ∃ id task sink,
      w'.fetches.Wants task ∧ w'.client.AsksFor id task sink ∧
      ((w.after before).client.call? id = none → id ∈ w'.client.pendingIds)) := by
  intro w'
  have hmid := (begins.inStep equips).reconnects tends earlier
  have hlast := tends_after (o := True) tends (fun _ => stays) hmid.fetching takes
  rw [← after_append] at hlast
  have hend := hmid.tends hlast
  have hrecent : w'.Remembers fun id => (w.after before).client.call? id = none :=
    hlast.remembers trivial _ fun id call hnone hc => by simp [hnone] at hc
  have hasked : ∀ task ∈ w'.fetches.ids, ∃ id sink, w'.client.AsksFor id task sink ∧
      ((w.after before).client.call? id = none → id ∈ w'.client.pendingIds) := by
    intro task hm
    obtain ⟨id, sink, ha⟩ := hend.asked typed task hm
    obtain ⟨call, hc, hfor⟩ := ha
    exact ⟨id, sink, ⟨call, hc, hfor⟩, fun hnone => hrecent id call hnone hc hfor.pending⟩
  refine ⟨hasked, fun hu hs => ?_⟩
  obtain ⟨task, hw⟩ := (hend.status hu).1 hs
  obtain ⟨id, sink, ha⟩ := hasked task (List.mem_map_of_mem (f := Fetch.id) hw)
  exact ⟨id, task, sink, hw, ha⟩

/-- The transport stops while a fetch is under way and is used again for another one. -/
theorem wanted_outstanding_reconnected :
    let t : Transport := ⟨true, [], .atOnce, false, []⟩
    let start : Action := .task (.start ⟨.int 0, .int 0⟩ none)
    let before : List Action := [start, .client .stopTransport]
    ∃ w, startEditing 1 t ⟨.null, .null, [], []⟩ ⟨.str "ab", .str "/a.txt", .null, .lf⟩
        none none none none = .ok w ∧
      (w.after (before ++ [start])).fetches.ids = [1, 2] ∧
      (w.after (before ++ [start])).client.pendingIds = [2] ∧
      (∀ task ∈ (w.after (before ++ [start])).fetches.ids, ∃ id sink,
        (w.after (before ++ [start])).client.AsksFor id task sink ∧
          ((w.after before).client.call? id = none →
            id ∈ (w.after (before ++ [start])).client.pendingIds)) ∧
      ∃ id task sink, (w.after (before ++ [start])).client.AsksFor id task sink := by
  intro t start before
  let k := Conduct.ofKind fun a => a.tends && a.isTyped && !a.closes
  have begins : Begins t ⟨.null, .null, [], []⟩ _ :=
    .assistant 1 ⟨.str "ab", .str "/a.txt", .null, .lf⟩ none none none none rfl
  have hkind : ∀ a, k.does a → (a.tends = true ∧ a.isTyped = true) ∧ a.closes = false := by
    intro a ha
    simpa [k, Conduct.ofKind, and_assoc] using ha
  have earlier : ∀ w, k.Reconnects before w := Conduct.reconnects_ofKind (by decide +kernel)
  have takes : ∀ w, k.Takes [start] w := Conduct.takes_ofKind (by decide +kernel)
  have hrun := wanted_outstanding begins (by simp [Conduct.Equips]) (fun a ha => (hkind a ha).1.1)
    (fun a ha => (hkind a ha).1.2) (fun a ha => (hkind a ha).2) (earlier _)
    (takes _)
  refine ⟨_, rfl, by decide +kernel, by decide +kernel, hrun.1, ?_⟩
  obtain ⟨id, task, sink, -, ha, -⟩ := hrun.2 (by decide +kernel) (by decide +kernel)
  exact ⟨id, task, sink, ha⟩

/-- The transport stops while a fetch is wanted: nothing is outstanding, and there is activity. -/
theorem wanted_though_forgotten :
    let t : Transport := ⟨true, [], .atOnce, false, []⟩
    let actions : List Action :=
      [.task (.start ⟨.int 0, .int 0⟩ none), .client .stopTransport]
    ∃ w, startEditing 1 t ⟨.null, .null, [], []⟩ ⟨.str "ab", .str "/a.txt", .null, .lf⟩
        none none none none = .ok w ∧
      (w.after actions).OwnStatus ∧ (w.after actions).fetches.Wants 1 ∧
      (w.after actions).client.pendingIds = [] ∧
      (w.after actions).assistant.status = .inProgress :=
  ⟨_, rfl, by decide +kernel, by decide +kernel, by decide +kernel, by decide +kernel⟩

end World

end GhostText
