import GhostText.Proofs.Fetch.Reading
import GhostText.Proofs.Session.Ending

/-!
# Every candidate is accounted for

What a controller is given, by the answers to its fetches or by its host, it tells the server of
once: when it turns it down, or when the session that shows it ends. Only what the live session
shows is still to be told.
-/

namespace GhostText

/-! ## What the server is told of completions -/

/-- The completions of which a payload says that they were accepted or turned down. -/
def Json.settledUuids (payload : Json) : List String :=
  match Message.classify payload with
  | .ok (.notification method params) =>
    if method = "notifyAccepted" then [(params.fieldD "uuid").textOrEmpty]
    else if method = "notifyRejected" then
      ((params.fieldD "uuids").items.toOption.getD []).map Json.textOrEmpty
    else []
  | _ => []

/-- The completions of which a payload says that they are shown. -/
def Json.shownUuids (payload : Json) : List String :=
  match Message.classify payload with
  | .ok (.notification method params) =>
    if method = "notifyShown" then [(params.fieldD "uuid").textOrEmpty] else []
  | _ => []

theorem Json.settledUuids_rejectionOf (uuids : List String) :
    (World.rejectionOf uuids).settledUuids = uuids ∧ (World.rejectionOf uuids).shownUuids = [] := by
  have hitems : (Json.arr (uuids.map .str)).items = .ok (uuids.map .str) := rfl
  have htext : Json.textOrEmpty ∘ Json.str = id := funext textOrEmpty_str
  constructor
  · simp [settledUuids, World.rejectionOf, Message.classify_notification, fieldD, field?, fields,
      hitems, Except.toOption, htext]
  · simp [shownUuids, World.rejectionOf, Message.classify_notification]

theorem Json.settledUuids_acceptanceOf (uuid : String) :
    (World.acceptanceOf uuid).settledUuids = [uuid] ∧
      (World.acceptanceOf uuid).shownUuids = [] := by
  constructor
  · simp [settledUuids, World.acceptanceOf, Message.classify_notification, fieldD, field?, fields]
  · simp [shownUuids, World.acceptanceOf, Message.classify_notification]

theorem Json.shownUuids_showingOf (uuid : String) :
    (World.showingOf uuid).settledUuids = [] ∧ (World.showingOf uuid).shownUuids = [uuid] := by
  constructor
  · simp [settledUuids, World.showingOf, Message.classify_notification]
  · simp [shownUuids, World.showingOf, Message.classify_notification, fieldD, field?, fields]

theorem Json.settledUuids_notice (s : Session) :
    s.notice.settledUuids = [s.uuid] ∧ s.notice.shownUuids = [] := by
  unfold Session.notice
  split
  · exact settledUuids_acceptanceOf s.uuid
  · exact settledUuids_rejectionOf [s.uuid]

/-- What reports nothing settles and shows nothing. -/
theorem Json.settledUuids_of_not_isReport {payload : Json} (h : payload.isReport = false) :
    payload.settledUuids = [] ∧ payload.shownUuids = [] := by
  unfold isReport at h
  unfold settledUuids shownUuids
  split
  · next hm =>
    simp only [hm, reportMethods, List.contains_eq_mem, List.mem_cons, List.not_mem_nil, or_false,
      decide_eq_false_iff_not, not_or] at h
    simp [h]
  · exact ⟨rfl, rfl⟩

namespace Event

def settles : Event → List String
  | .sent payload => payload.settledUuids
  | _ => []

def shows : Event → List String
  | .sent payload => payload.shownUuids
  | _ => []

/-- What is not about sessions tells of no completion. -/
theorem settles_of_not_isOfSession {e : Event} (h : e.isOfSession = false) :
    e.settles = [] ∧ e.shows = [] := by
  cases e with
  | sent payload => exact Json.settledUuids_of_not_isReport h
  | _ => exact ⟨rfl, rfl⟩

end Event

/-- The completions that some events tell the server the end of. -/
def settledIn (es : List Event) : List String := es.flatMap Event.settles

/-- The completions that some events tell the server the beginning of. -/
def shownIn (es : List Event) : List String := es.flatMap Event.shows

@[simp] theorem settledIn_append (es es' : List Event) :
    settledIn (es ++ es') = settledIn es ++ settledIn es' := List.flatMap_append ..

@[simp] theorem shownIn_append (es es' : List Event) :
    shownIn (es ++ es') = shownIn es ++ shownIn es' := List.flatMap_append ..

@[simp] theorem settledIn_cons (e : Event) (es : List Event) :
    settledIn (e :: es) = e.settles ++ settledIn es := List.flatMap_cons ..

@[simp] theorem shownIn_cons (e : Event) (es : List Event) :
    shownIn (e :: es) = e.shows ++ shownIn es := List.flatMap_cons ..

@[simp] theorem settledIn_nil : settledIn [] = [] := rfl

@[simp] theorem shownIn_nil : shownIn [] = [] := rfl

theorem settledIn_eq_nil {es : List Event} (h : ∀ e ∈ es, e.isOfSession = false) :
    settledIn es = [] ∧ shownIn es = [] :=
  ⟨List.flatMap_eq_nil_iff.2 fun e he => (Event.settles_of_not_isOfSession (h e he)).1,
    List.flatMap_eq_nil_iff.2 fun e he => (Event.settles_of_not_isOfSession (h e he)).2⟩

theorem settledIn_asides {es : List Event} (h : ∀ e ∈ es, e.isAside) :
    settledIn es = [] ∧ shownIn es = [] :=
  settledIn_eq_nil fun e he => Event.not_isOfSession_of_isAside (h e he)

/-! ## Balances -/

/-- With some completions on hand and some that are given, some events leave others on hand: none is
lost and none is told of twice, and none is told to be shown that was told of before. -/
structure Balanced (before given : List String) (es : List Event) (after : List String) :
    Prop where
  total : ∀ u, before.count u + given.count u = (settledIn es).count u + after.count u
  given : ∀ u, (shownIn es).count u ≤ given.count u
  later : ∀ first last, es = first ++ last → ∀ u,
    (shownIn last).count u ≤ (settledIn last).count u + after.count u

namespace Balanced

variable {a b c g : List String} {es : List Event}

theorem append {g' : List String} {es' : List Event} (h : Balanced a g es b)
    (h' : Balanced b g' es' c) : Balanced a (g ++ g') (es ++ es') c := by
  refine ⟨fun u => ?_, fun u => ?_, fun first last he u => ?_⟩
  · have h₁ := h.total u
    have h₂ := h'.total u
    simp only [settledIn_append, List.count_append]
    omega
  · have h₁ := h.given u
    have h₂ := h'.given u
    simp only [shownIn_append, List.count_append]
    omega
  · rcases List.append_eq_append_iff.1 he with ⟨rest, -, rfl⟩ | ⟨rest, rfl, rfl⟩
    · exact h'.later rest last rfl u
    · -- what is shown later is given later
      have h₁ := h.later first rest rfl u
      have h₂ := h'.given u
      have h₃ := h'.total u
      simp only [settledIn_append, shownIn_append, List.count_append]
      omega

theorem perm {g' : List String} (h : Balanced a g es b) (hg : g.Perm g') : Balanced a g' es b :=
  ⟨fun u => hg.count_eq u ▸ h.total u, fun u => hg.count_eq u ▸ h.given u, h.later⟩

/-- Nothing is shown. -/
theorem of_shown_nil (hshown : shownIn es = []) (total : (a ++ g).Perm (settledIn es ++ b)) :
    Balanced a g es b := by
  refine ⟨fun u => by simpa using total.count_eq u, fun u => by simp [hshown], ?_⟩
  rintro first last rfl u
  rw [shownIn_append, List.append_eq_nil_iff] at hshown
  simp [hshown.2]

/-- Where nothing is told of sessions, what is live stays so. -/
theorem of_silent (h : ∀ e ∈ es, e.isOfSession = false) : Balanced a [] es a := by
  obtain ⟨hsettled, hshown⟩ := settledIn_eq_nil h
  exact of_shown_nil hshown (by simp [hsettled])

/-- What is given is shown and stays on hand. -/
theorem of_shown (hsettled : settledIn es = []) (hshown : shownIn es = g) :
    Balanced [] g es g := by
  refine ⟨fun u => by simp [hsettled], fun u => by simp [hshown], ?_⟩
  rintro first last rfl u
  rw [shownIn_append] at hshown
  simp only [← hshown, List.count_append]
  omega

end Balanced

/-! ## The controller's books -/

namespace World

variable {k : Regime} {w w' w'' : World} {g : List String}

def live (w : World) : List String := ((w.slot?.bind fun n => w.session? n).map Session.uuid).toList

/-- There is a controller, what it sends is accepted, and all sessions are its own: they were
started, and only the live one has not ended. -/
structure Tidy (w : World) : Prop where
  accepting : w.transport.accepting = true
  controlled : w.controller.isSome = true
  shown : ∀ n s, w.session? n = some s → s.artifact.isSome = true ∧ s.controlled = true
  slot : ∀ n, w.slot? = some n ↔ ∃ s, w.session? n = some s ∧ s.isFinished = false

/-- What is told of completions agrees with what is given and with what is live. -/
def Balances (w w' : World) (given : List String) : Prop :=
  ∃ es, w'.events = w.events ++ es ∧ Balanced w.live given es w'.live

/-- A world that is tidy is left tidy, and what is told agrees. -/
def Books (w w' : World) (given : List String) : Prop :=
  w.Tidy → w'.Tidy ∧ w.Balances w' given

theorem Balances.trans {g' : List String} (h : w.Balances w' g) (h' : w'.Balances w'' g') :
    w.Balances w'' (g ++ g') := by
  obtain ⟨es, he, hb⟩ := h
  obtain ⟨es', he', hb'⟩ := h'
  exact ⟨es ++ es', by rw [he', he, List.append_assoc], hb.append hb'⟩

namespace Books

theorem refl (w : World) : w.Books w [] := fun ht =>
  ⟨ht, [], (List.append_nil _).symm, .of_silent (List.forall_mem_nil _)⟩

theorem trans {g' : List String} (h : w.Books w' g) (h' : w'.Books w'' g') :
    w.Books w'' (g ++ g') := fun ht =>
  ⟨(h' (h ht).1).1, (h ht).2.trans (h' (h ht).1).2⟩

end Books

/-! ## Steps -/

/-- The live session holds one completion. -/
theorem live_of_slot? {n : Nat} {s : Session} (hslot : w.slot? = some n)
    (hs : w.session? n = some s) : w.live = [s.uuid] := by
  simp [live, hslot, hs]

theorem live_of_slot?_none (h : w.slot? = none) : w.live = [] := by
  simp [live, h]

/-- A step that leaves the sessions as they are leaves the books balanced. -/
theorem Leaves.books (h : w.Leaves w') : w.Books w' [] := by
  intro ht
  have hsession : ∀ n, w'.session? n = w.session? n := fun n => by
    rw [session?, h.sessions, session?]
  have hslot : w'.slot? = w.slot? := congrArg Option.join h.slot
  have hlive : w'.live = w.live := by simp only [live, hslot, hsession]
  obtain ⟨es, he, hes⟩ := h.events
  refine ⟨⟨h.accepting.trans ht.accepting, ?_, fun n s hs => ht.shown n s (hsession n ▸ hs),
    fun n => ?_⟩, es, he, hlive ▸ .of_silent hes⟩
  · have hcontroller := congrArg Option.isSome h.slot
    simpa [ht.controlled] using hcontroller
  · rw [hslot, ht.slot]
    simp only [hsession]

/-- A session changes, but neither in what it shows nor in what became of it. -/
theorem books_update {n : Nat} {f : Session → Session}
    (hf : ∀ s, w.session? n = some s → (f s).state = s.state ∧ (f s).completion = s.completion ∧
      (f s).controlled = s.controlled ∧ (s.artifact.isSome = true → (f s).artifact.isSome = true))
    (hw : ∀ m, w'.session? m = if n = m then (w.session? m).map f else w.session? m)
    (accepting : w'.transport.accepting = w.transport.accepting)
    (controller : w'.controller = w.controller) (events : w'.events = w.events) :
    w.Books w' [] := by
  intro ht
  -- what the session looks like afterwards, and what it looked like before
  have hmap : ∀ m, ∃ g : Session → Session, w'.session? m = (w.session? m).map g ∧
      ∀ s, w.session? m = some s → (g s).state = s.state ∧ (g s).completion = s.completion ∧
        (g s).controlled = s.controlled ∧ (s.artifact.isSome = true →
          (g s).artifact.isSome = true) := by
    intro m
    by_cases hm : n = m
    · subst hm
      exact ⟨f, (hw n).trans (if_pos rfl), hf⟩
    · exact ⟨id, by rw [hw, if_neg hm, Option.map_id, id], fun s _ => ⟨rfl, rfl, rfl, id⟩⟩
  have hslot : w'.slot? = w.slot? := by rw [slot?, controller, slot?]
  have hlive : w'.live = w.live := by
    unfold live
    rw [hslot]
    cases w.slot? with
    | none => rfl
    | some m =>
      obtain ⟨g, hg, hkept⟩ := hmap m
      cases hs : w.session? m with
      | none => simp [hg, hs]
      | some s => simp [hg, hs, Session.uuid, (hkept s hs).2.1]
  refine ⟨⟨accepting.trans ht.accepting, controller ▸ ht.controlled, fun m s hs => ?_, fun m => ?_⟩,
    [], by simpa using events, hlive ▸ .of_silent (List.forall_mem_nil _)⟩
  · obtain ⟨g, hg, hkept⟩ := hmap m
    rw [hg] at hs
    obtain ⟨s₀, hs₀, rfl⟩ := Option.map_eq_some_iff.1 hs
    obtain ⟨-, -, hcontrolled, hshown⟩ := hkept s₀ hs₀
    exact ⟨hshown (ht.shown m s₀ hs₀).1, hcontrolled.trans (ht.shown m s₀ hs₀).2⟩
  · obtain ⟨g, hg, hkept⟩ := hmap m
    rw [hslot, ht.slot, hg]
    constructor
    · rintro ⟨s, hs, hf⟩
      refine ⟨g s, by rw [hs, Option.map_some], ?_⟩
      simpa only [Session.isFinished, (hkept s hs).1] using hf
    · rintro ⟨s, hs, hf⟩
      obtain ⟨s₀, hs₀, rfl⟩ := Option.map_eq_some_iff.1 hs
      refine ⟨s₀, hs₀, ?_⟩
      simpa only [Session.isFinished, (hkept s₀ hs₀).1] using hf

/-- The live session ends, and the server is told. -/
theorem Finishes.books {n : Nat} {s s' : Session} (h : w.Finishes w' n s')
    (hs : w.session? n = some s) (unfinished : s.isFinished = false)
    (finished : s'.isFinished = true) (completion : s'.completion = s.completion)
    (controlled : s'.controlled = s.controlled) (artifact : s'.artifact = s.artifact) :
    w.Books w' [] := by
  intro ht
  have hslot : w.slot? = some n := (ht.slot n).2 ⟨s, hs, unfinished⟩
  have hcontrolled := controlled.trans (ht.shown n s hs).2
  have hslot' : w'.slot? = none := by
    obtain ⟨c, hc⟩ := Option.isSome_iff_exists.1 ht.controlled
    have hsession : c.session = some n := by simpa [slot?, hc] using hslot
    rw [slot?, h.slot, hc]
    simp [hcontrolled, hsession]
  obtain ⟨es, ha, he⟩ := h.told
  refine ⟨⟨h.accepting.trans ht.accepting, ?_, fun m t hm => ?_, fun m => ?_⟩, _, he, ?_⟩
  · have hsome := congrArg Option.isSome h.slot
    simpa [ht.controlled] using hsome
  · by_cases hne : n = m
    · subst hne
      obtain rfl := Option.some.inj (h.session.symm.trans hm)
      exact ⟨artifact ▸ (ht.shown n s hs).1, hcontrolled⟩
    · exact ht.shown m t ((h.others m hne).symm.trans hm)
  · simp only [hslot', reduceCtorEq, false_iff, not_exists, not_and, Bool.not_eq_false]
    intro t hm
    by_cases hne : n = m
    · subst hne
      obtain rfl := Option.some.inj (h.session.symm.trans hm)
      exact finished
    · by_contra hf
      have hlive := (ht.slot m).2 ⟨t, (h.others m hne).symm.trans hm, by simpa using hf⟩
      exact hne (Option.some.inj (hslot.symm.trans hlive))
  · obtain ⟨hsettled, hshown⟩ := Json.settledUuids_notice s'
    obtain ⟨hasides, hasides'⟩ := settledIn_asides ha
    rw [live_of_slot?_none hslot', live_of_slot? hslot hs, ht.accepting]
    have huuid : s'.uuid = s.uuid := congrArg Completion.uuid completion
    refine .of_shown_nil ?_ ?_
    · simp [Event.shows, hshown, hasides']
    · simp [Event.settles, hsettled, huuid, hasides]

end World

/-- A step of a session tells of what it ends and takes on what it shows. -/
theorem SessionStep.books (h : SessionStep k w w') (he : ¬ k.engages)
    (own : ∀ completion inline key tasks,
      ¬ k.does (.session (.create completion inline key tasks))) : w.Books w' [] := by
  cases h with
  | propose _ _ allowed => exact absurd allowed (own _ _ _ _)
  | bring _ _ engages => exact absurd engages he
  | start found fresh _ _ =>
    intro ht
    simpa [fresh] using (ht.shown _ _ found).1
  | discard _ found _ fresh =>
    intro ht
    simpa [fresh] using (ht.shown _ _ found).1
  | @withdraw n s found _ _ =>
    obtain ⟨a, hsome, ha⟩ := World.session?_withdrawn found
    refine World.books_update (n := n) (f := fun s => { s with closing := true, artifact := a })
      (fun t ht => ?_) (fun m => ?_) ?_ ?_ ?_
    · obtain rfl := Option.some.inj (found.symm.trans ht)
      exact ⟨rfl, rfl, rfl, hsome⟩
    · by_cases hm : n = m
      · subst hm
        rw [if_pos rfl, ha, found, Option.map_some]
      · rw [if_neg hm, World.session?_withdrawn_ne s w (Ne.symm hm)]
    · rw [(World.beside_removeSuggestion n s _).transport]
      rfl
    · rw [World.controller_removeSuggestion]
      rfl
    · rw [World.events_removeSuggestion]
      rfl
  | fail reason found _ unfinished =>
    exact (World.finishes_rejected found reason).books found unfinished rfl rfl rfl rfl
  | succeed found _ unfinished =>
    exact (World.finishes_accepted found).books found unfinished rfl rfl rfl rfl

/-- Along a row of steps the books stay balanced. -/
theorem Steps.books (h : Steps k w w') (he : ¬ k.engages)
    (hw : ∀ b, ¬ k.does (.client (.acceptWrites b)))
    (own : ∀ completion inline key tasks,
      ¬ k.does (.session (.create completion inline key tasks))) : w.Books w' [] := by
  induction h with
  | refl => exact .refl w
  | tail _ step ih =>
    have hstep := (step.leaves he hw).elim World.Leaves.books fun hsession =>
      hsession.books he own
    exact ih.trans hstep

end GhostText
