import GhostText.Proofs.Run.Unrestrained
import GhostText.Proofs.Session.Ending
import GhostText.Proofs.Session.Slot

/-!
# One session at a time

Where the host leaves the sessions to the controller, the controller's slot has the one session that
has not ended, and nothing is shown where it is free. Of every session that ends everybody is told
once, whatever else the host does.
-/

namespace GhostText

variable {k : Regime} {w w' : World}

/-! ## Ends are announced once -/

/-- An event that tells everybody but the server that a session has ended. -/
def Event.isFinish : Event → Bool
  | .signalled (.sessionFinished _ _ _) => true
  | .signalled (.sessionSettled _ _) => true
  | _ => false

theorem Event.isEnding_of_isFinish {e : Event} (h : e.isFinish) : e.isEnding = true := by
  unfold Event.isFinish at h
  split at h
  · rfl
  · rfl
  · cases h

theorem Event.not_isFinish_of_isAside {e : Event} (h : e.isAside) : e.isFinish = false := by
  unfold Event.isFinish
  split <;> simp_all [Event.isAside]

namespace World

/-- What everybody is told of the end of a session. -/
def finish? (w : World) (n : Nat) : Option Event :=
  (w.session? n).map fun s => .signalled s.finish

/-- The sessions that have ended, in an order, and what was announced are their ends. -/
structure Announced (w : World) (order : List Nat) : Prop where
  nodup : order.Nodup
  ended : ∀ n, n ∈ order ↔ w.Finished n
  told : w.events.filter Event.isFinish = order.filterMap w.finish?

/-- What is signalled of an end is the one signal of its session. -/
theorem filter_farewell_isFinish (w : World) (n : Nat) :
    (w.farewell n).filter Event.isFinish = (w.finish? n).toList := by
  unfold farewell finish?
  cases w.session? n with
  | none => rfl
  | some s =>
    have hfinish : Event.isFinish (.signalled s.finish) = true := by
      unfold Session.finish
      split <;> rfl
    have hnotice : Event.isFinish (.sent s.notice) = false := rfl
    cases w.transport.accepting <;> simp [hfinish, hnotice]

/-- Of what is told of ends, a part is for everybody. -/
theorem Ends.announced {order : List Nat} (h : w.Ends w' order) : ∃ es,
    w'.events = w.events ++ es ∧ es.filter Event.isFinish = order.filterMap w'.finish? := by
  obtain ⟨es, he, hes⟩ := h.told
  refine ⟨es, he, ?_⟩
  calc es.filter Event.isFinish
      = (es.filter Event.isEnding).filter Event.isFinish := by
        rw [List.filter_filter]
        refine List.filter_congr fun e _ => ?_
        cases hf : e.isFinish with
        | false => rfl
        | true => simp [Event.isEnding_of_isFinish hf]
    _ = order.flatMap fun n => (w'.finish? n).toList := by
        simp only [hes, List.filter_flatMap, filter_farewell_isFinish]
    _ = order.filterMap w'.finish? := (List.filterMap_eq_flatMap_toList ..).symm

namespace Announced

variable {order : List Nat}

/-- More ends are announced behind those before. -/
theorem ends {order' : List Nat} (h : w.Announced order) (he : w.Ends w' order') :
    w'.Announced (order ++ order') := by
  obtain ⟨es, hevents, hes⟩ := he.announced
  refine ⟨?_, fun n => ?_, ?_⟩
  · refine h.nodup.append he.nodup fun n hn hn' => ?_
    exact ((he.ended n).1 hn').2 ((h.ended n).1 hn)
  · rw [List.mem_append, h.ended, he.ended]
    constructor
    · rintro (hn | ⟨hn, -⟩)
      · exact he.finished hn
      · exact hn
    · intro hn
      by_cases hbefore : w.Finished n
      · exact .inl hbefore
      · exact .inr ⟨hn, hbefore⟩
  · -- what was announced of a session stays the same
    have hsame : order.filterMap w'.finish? = order.filterMap w.finish? := by
      refine List.filterMap_congr fun n hn => ?_
      obtain ⟨s, hs, hf⟩ := (h.ended n).1 hn
      rw [finish?, finish?, hs, he.kept n s hs hf]
    rw [hevents, List.filter_append, h.told, hes, List.filterMap_append, hsame]

/-- The sessions stay as they are and no end is announced. -/
theorem silent (h : w.Announced order) (hs : w'.sessions = w.sessions)
    (he : ∃ es, w'.events = w.events ++ es ∧ ∀ e ∈ es, e.isFinish = false) :
    w'.Announced order := by
  have hsession : ∀ n, w'.session? n = w.session? n := fun n => by rw [session?, hs, session?]
  have hfinish : w'.finish? = w.finish? := funext fun n => by rw [finish?, finish?, hsession]
  obtain ⟨es, hevents, hes⟩ := he
  refine ⟨h.nodup, fun n => (h.ended n).trans ?_, ?_⟩
  · simp only [Finished, hsession]
  · have hnone : es.filter Event.isFinish = [] := by simpa using hes
    rw [hevents, List.filter_append, hnone, List.append_nil, h.told, hfinish]

end Announced

end World

/-- Only the steps of the sessions announce ends. -/
theorem Step.announced (h : Step k w w') {order : List Nat} (ha : w.Announced order) :
    ∃ order', w'.Announced order' := by
  have hrecord : ∀ e : Event, e.isFinish = false → ∃ order', (w.record e).Announced order' :=
    fun e he => ⟨order, ha.silent rfl ⟨[e], rfl, by simpa using he⟩⟩
  have hquiet : ∀ {w' : World}, w'.sessions = w.sessions → w'.events = w.events →
      ∃ order', w'.Announced order' := fun hs he =>
    ⟨order, ha.silent hs ⟨[], he.trans (List.append_nil _).symm, List.forall_mem_nil _⟩⟩
  cases h with
  | session step =>
    obtain ⟨order', hends⟩ := step.ends
    exact ⟨_, ha.ends hends⟩
  | document step =>
    obtain ⟨es, he, hes⟩ := step.informs.events
    refine ⟨order, ha.silent step.informs.sessions ⟨es, he, fun e hm => ?_⟩⟩
    rcases hes e hm with haside | ⟨v, rfl, -⟩
    · exact Event.not_isFinish_of_isAside haside
    · rfl
  | note aside => exact hrecord _ (Event.not_isFinish_of_isAside aside)
  | callBack kind o waits settled => exact hrecord _ rfl
  | send accepting allowed report => exact hrecord _ rfl
  | _ => exact hquiet rfl rfl

/-- Along a row of steps every end is announced once. -/
theorem Steps.announced (h : Steps k w w') {order : List Nat} (ha : w.Announced order) :
    ∃ order', w'.Announced order' := by
  induction h with
  | refl => exact ⟨order, ha⟩
  | tail _ step ih =>
    obtain ⟨order', ih⟩ := ih
    exact step.announced ih

namespace World

/-! ## Whole runs -/

variable {k : Conduct} {t : Transport} {setup : ClientSetup} {c : Canvas} {n : Nat} {s : Session}

/-- At the beginning of a run nothing is shown. -/
theorem Fresh.neat (h : w.Fresh k t) : w.Neat w.canvas := by
  have hsession : ∀ n, w.session? n = none := fun n => by simp [session?, h.sessions]
  have hslot : w.slot? = none := by
    unfold slot?
    cases hc : w.controller with
    | none => rfl
    | some c => simp [h.slot c hc]
  refine ⟨?_, h.unblocked, h.panel, ?_, ?_, fun _ => rfl, ?_⟩
  · simp [Inert, h.host, Host.start]
  · rw [h.listeners, hslot]
    rfl
  · simp [hsession]
  · simp [hslot]

theorem Fresh.announced (h : w.Fresh k t) : w.Announced [] := by
  refine ⟨.nil, fun n => ?_, ?_⟩
  · simp [Finished, session?, h.sessions]
  · simpa using fun e he => Event.not_isFinish_of_isAside (h.asides e he)

/-- In a neat world every session is the controller's. -/
theorem Neat.controlled (h : w.Neat c) (hs : w.session? n = some s) : s.controlled = true := by
  by_cases hslot : w.slot? = some n
  · obtain ⟨t, ht, hoffers⟩ := h.live n hslot
    obtain rfl := Option.some.inj (hs.symm.trans ht)
    exact hoffers.controlled
  · exact (h.ended n s hs hslot).controlled

/-- The session in the slot is the one that has not ended. -/
theorem Neat.slot?_eq_some_iff (h : w.Neat c) :
    w.slot? = some n ↔ ∃ s, w.session? n = some s ∧ s.isFinished = false := by
  constructor
  · intro hslot
    obtain ⟨s, hs, hoffers⟩ := h.live n hslot
    exact ⟨s, hs, Session.unfinished_of_isOpen hoffers.unended⟩
  · rintro ⟨s, hs, hunfinished⟩
    by_contra hslot
    simp [(h.ended n s hs hslot).finished] at hunfinished

/-- In every run in which the host leaves the sessions to the controller and the subscribers do
nothing, the session that has not ended is the one in the slot. While the slot is free nothing is
shown, and until the text is edited it stays as it was when the slot was last free; where a session
was shown meanwhile, the text is so again before it is edited. The end of every session was
announced once. -/
theorem slot_after (begins : w.Begins t setup) (equips : k.Equips setup) (modest : k.Modest)
    {before actions : List Action} (takes : k.Takes (before ++ actions) w) :
    let w₁ := w.after before
    let w' := w.after (before ++ actions)
    (∀ n s, w'.session? n = some s → s.controlled = true) ∧
    (∀ n, w'.slot? = some n ↔ ∃ s, w'.session? n = some s ∧ s.isFinished = false) ∧
    (w'.slot? = none → w'.canvas.panel = "" ∧
      ∀ n s, w'.session? n = some s → s.isGone = true) ∧
    (w₁.slot? = none →
      (∀ es, w'.events = w₁.events ++ es → Event.signalled .contentChanged ∉ es) →
      (w'.slot? = none → w'.canvas.Like w₁.canvas) ∧
      ∀ origin, (aboutToChange (runTo depthLimit) origin w').canvas.Like w₁.canvas) ∧
    ∃ order, w'.Announced order := by
  intro w₁ w'
  have hfresh := begins.fresh equips
  obtain ⟨hbefore, hlater⟩ := Conduct.takes_append.1 takes
  have hfirst : Leads k.free w w₁ := leads_after (k := k.free) hbefore
  have hs₁ := (hfirst.steps hfresh.sound).sound hfresh.sound
  have hrest : Leads k.free w₁ w' := by
    have hafter := leads_after (k := k.free) hlater
    rwa [← after_append] at hafter
  obtain ⟨c₁, h₁⟩ := hfirst.neat hfresh.sound modest _ hfresh.neat
  obtain ⟨c', h'⟩ := hrest.neat hs₁ modest c₁ h₁.neat
  refine ⟨fun n s => h'.neat.controlled, fun n => h'.neat.slot?_eq_some_iff, fun hslot => ?_,
    fun hslot₁ hunedited => ?_, ?_⟩
  · exact ⟨(h'.neat.bare hslot).panel, fun n s hs => (h'.neat.ended n s hs (by simp [hslot])).gone⟩
  · obtain ⟨es, he, hedit⟩ := h'.told
    have hlike : c'.Like w₁.canvas :=
      (hedit.resolve_left (hunedited es he)).trans (h₁.neat.vacant hslot₁).symm
    have hidle := (steady_runTo (k := k.free) depthLimit).idle
    exact ⟨fun hslot => (h'.neat.vacant hslot).trans hlike,
      fun origin => (h'.neat.aboutToChange hidle origin).2.trans hlike⟩
  · exact ((hfirst.trans hrest).steps hfresh.sound).announced hfresh.announced

/-- One suggestion is replaced by another, one gives way to typing, one is accepted and the last one
turned down. -/
theorem slot_after_four_ways :
    let t : Transport := ⟨true, [], .atOnce, false, []⟩
    let present (uuid : String) : Action := .controller (.present (.obj [("uuid", .str uuid),
      ("range", .obj [("start", .obj [("line", .int 0), ("character", .int 2)]),
        ("end", .obj [("line", .int 0), ("character", .int 2)])]), ("text", .str "G")]))
    let before : List Action := [present "a", present "b", .editor (.type (.str "x")),
      present "c", .editor (.key (.str "Tab"))]
    let actions : List Action := [present "d", .controller (.reject (.str "no"))]
    ∃ w₀ w, startEditing 1 t ⟨.null, .null, [], []⟩ ⟨.str "ab", .str "/a.txt", .null, .lf⟩
        none none none none = .ok w₀ ∧ w₀.withController .null = .ok w ∧
      let w₁ := w.after before
      let w' := w.after (before ++ actions)
      ((∀ n s, w'.session? n = some s → s.controlled = true) ∧
      (∀ n, w'.slot? = some n ↔ ∃ s, w'.session? n = some s ∧ s.isFinished = false) ∧
      (w'.slot? = none → w'.canvas.panel = "" ∧
        ∀ n s, w'.session? n = some s → s.isGone = true) ∧
      (w₁.slot? = none →
        (∀ es, w'.events = w₁.events ++ es → Event.signalled .contentChanged ∉ es) →
        (w'.slot? = none → w'.canvas.Like w₁.canvas) ∧
        ∀ origin, (aboutToChange (runTo depthLimit) origin w').canvas.Like w₁.canvas) ∧
      ∃ order, w'.Announced order) ∧
      (w₁.slot?, (w.after (before ++ [present "d"])).slot?, w'.slot?) = (none, some 3, none) ∧
      w'.sessions.map Session.state = [.rejected, .rejected, .accepted, .rejected] := by
  intro t present before actions
  refine ⟨_, _, rfl, rfl, ?_, by decide +kernel, by decide +kernel⟩
  have begins : Begins t ⟨.null, .null, [], []⟩ _ :=
    .controller 1 ⟨.str "ab", .str "/a.txt", .null, .lf⟩ none none none none .null rfl rfl
  have modest : (Conduct.ofKind fun a => !a.meddles).Modest :=
    fun a ha => by simpa [Conduct.ofKind] using ha
  exact slot_after begins (by simp [Conduct.Equips]) modest
    (Conduct.takes_ofKind (by decide +kernel) _)

/-- A subscriber that presents a completion when the status changes does so while an edit is being
announced. The session it starts ends with that edit, but its suggestion has become part of the
text: the text is not the one that was there, with what was typed. -/
theorem ghost_kept_by_subscriber :
    let t : Transport := ⟨true, [], .atOnce, false, []⟩
    let present (uuid : String) : Action := .controller (.present (.obj [("uuid", .str uuid),
      ("range", .obj [("start", .obj [("line", .int 0), ("character", .int 2)]),
        ("end", .obj [("line", .int 0), ("character", .int 2)])]), ("text", .str uuid)]))
    let actions : List Action := [
      .assistant (.subscribe (.str "changeStatus") "s" [present "G2"]), present "G1",
      .editor (.insert (.str "x") "undo")]
    ∃ w₀ w, startEditing 1 t ⟨.null, .null, [], []⟩ ⟨.str "ab", .str "/a.txt", .null, .lf⟩
        none none none none = .ok w₀ ∧ w₀.withController .null = .ok w ∧
      let w' := w.after actions
      w'.slot? = none ∧ w'.sessions.map Session.isFinished = [true, true] ∧
        w'.sessions.map Session.isGone = [true, false] ∧
        w'.buffer.text = "abxG2".toList := by
  intro t present actions
  exact ⟨_, _, rfl, rfl, by decide +kernel⟩

end World

end GhostText
