import GhostText.Proofs.Run.Runs

/-!
# Runs in which only the host itself shows completions

Where no script has the answers of the server read or presents a completion, the server hears of a
completion only when a session begins or ends: every other step leaves the sessions and their
listeners alone and tells nobody of them.
-/

namespace GhostText

/-- A host whose scripts show no completion and tell the server of none, and which leaves the
transport as it is. -/
structure Conduct.Reticent (k : Conduct) : Prop where
  engages : ∀ a, k.does a → a.engages = false
  writes : ∀ b, ¬ k.does (.client (.acceptWrites b))

def Action.shows : Action → Bool
  | .client (.receive _) => true
  | .controller (.present _) => true
  | _ => false

/-- The host itself may have answers read and present completions at any time. -/
def Conduct.Shows (k : Conduct) : List Action → World → Prop
  | [], _ => True
  | a :: rest, w => (a.shows ∨ k.Fits w.client.nextId a) ∧ k.Shows rest (World.act a w).2

/-- A host that takes actions of a kind, and whose callbacks may wait for any call. -/
def Conduct.ofKind (kind : Action → Bool) : Conduct := ⟨fun a => kind a, fun _ _ => True⟩

theorem Conduct.fits_ofKind {kind : Action → Bool} {a : Action} (h : kind a && a.inner.isEmpty)
    (next : Nat) : (Conduct.ofKind kind).Fits next a := by
  simp only [Bool.and_eq_true, List.isEmpty_iff] at h
  exact ⟨h.1, fun _ _ _ _ => trivial, by simp [h.2]⟩

theorem Conduct.takes_ofKind {kind : Action → Bool} {actions : List Action}
    (h : ∀ a ∈ actions, kind a && a.inner.isEmpty) (w : World) :
    (Conduct.ofKind kind).Takes actions w := by
  induction actions generalizing w with
  | nil => trivial
  | cons a actions ih =>
    rw [List.forall_mem_cons] at h
    exact ⟨fits_ofKind h.1 _, ih h.2 _⟩

theorem Conduct.shows_ofKind {kind : Action → Bool} {actions : List Action}
    (h : ∀ a ∈ actions, a.shows ∨ (kind a && a.inner.isEmpty)) (w : World) :
    (Conduct.ofKind kind).Shows actions w := by
  induction actions generalizing w with
  | nil => trivial
  | cons a actions ih =>
    rw [List.forall_mem_cons] at h
    exact ⟨h.1.imp_right fun ha => fits_ofKind ha _, ih h.2 _⟩

def Action.isReticent : Action → Bool
  | .client (.acceptWrites _) => false
  | a => !a.engages

theorem Conduct.reticent_ofKind {kind : Action → Bool} (h : ∀ a, kind a → a.isReticent) :
    (Conduct.ofKind kind).Reticent := by
  refine ⟨fun a ha => ?_, fun b hb => ?_⟩
  · have hr := h a ha
    unfold Action.isReticent at hr
    split at hr
    · cases hr
    · simpa using hr
  · exact absurd (h _ hb) (by simp [Action.isReticent])

/-- The regime of a reticent host between its own actions. -/
def Conduct.reticence (k : Conduct) (h : k.Reticent) : Regime where
  toConduct := k
  holds _ := True
  asks := True
  engages := False
  asks_of _ _ _ := trivial
  engages_of a ha he := by simp [h.engages a ha] at he

/-- A sound world is sound under the narrower conduct too, if no answer is ready. -/
theorem Regime.Sound.reticence {k : Conduct} {w : World} (hw : k.free.Sound w) (h : k.Reticent)
    (ht : w.transport.answers = []) : (k.reticence h).Sound w :=
  ⟨hw.bound, hw.ledger, hw.held, .inl ht⟩

namespace World

/-- To present a completion is to show it, if it can be read. -/
theorem act_present (completion : Json) (w : World) :
    (act (.controller (.present completion)) w).2 =
      match Completion.ofJson completion with
      | .error _ => w
      | .ok c => w.present c := by
  have hact : act (.controller (.present completion)) w =
      performController (runTo depthLimit) (.present completion) w := rfl
  rw [hact]
  unfold performController
  dsimp only
  cases Completion.ofJson completion <;> rfl

/-- Whatever the host does by itself, its scripts make only steps. -/
theorem leads_shows {k : Conduct} {a : Action} {w : World}
    (h : a.shows ∨ k.Fits w.client.nextId a) : Leads k.free w (act a w).2 := by
  rcases h with hshows | hfits
  · unfold Action.shows at hshows
    split at hshows
    · exact leads_receive (steady_runTo depthLimit) ⟨trivial, trivial⟩ _ w
    · next completion =>
      rw [act_present]
      cases Completion.ofJson completion with
      | error f => exact .refl w
      | ok c => exact leads_present trivial c w
    · cases hshows
  · exact leads_act hfits

/-- Completions that the host presents itself lead on in a wider conduct. -/
theorem leads_showsAll {k : Conduct} {actions : List Action} {w : World}
    (h : k.Shows actions w) : Leads k.free w (w.after actions) := by
  induction actions generalizing w with
  | nil => exact .refl w
  | cons a actions ih => exact (leads_shows h.1).trans (ih h.2)

end World

/-! ## Steps that concern no session -/

/-- An event that tells the server what becomes of a completion, or everybody that a session begins
or ends. -/
def Event.isOfSession : Event → Bool
  | .sent payload => payload.isReport
  | .signalled (.sessionStarted _) => true
  | .signalled (.sessionFinished _ _ _) => true
  | .signalled (.sessionSettled _ _) => true
  | _ => false

theorem Event.not_isOfSession_of_isAside {e : Event} (h : e.isAside) : e.isOfSession = false := by
  unfold Event.isOfSession
  split <;> simp_all [Event.isAside]

/-- Neither the sessions nor their listeners change, and nobody is told of one. -/
structure World.Leaves (w w' : World) : Prop where
  accepting : w'.transport.accepting = w.transport.accepting
  sessions : w'.sessions = w.sessions
  listeners : w'.editor.listeners = w.editor.listeners
  slot : w'.controller.map Controller.session = w.controller.map Controller.session
  events : ∃ es, w'.events = w.events ++ es ∧ ∀ e ∈ es, e.isOfSession = false

variable {k : Regime} {w w' : World}

/-- What tells the server of the document leaves the sessions. -/
theorem DocumentStep.leaves (h : DocumentStep w w') : w.Leaves w' := by
  have hw := h.informs
  obtain ⟨es, he, hes⟩ := hw.events
  refine ⟨by rw [hw.transport], hw.sessions, by rw [hw.editor], hw.session, es, he,
    fun e hm => ?_⟩
  rcases hes e hm with haside | ⟨v, rfl, hv⟩
  · exact Event.not_isOfSession_of_isAside haside
  · exact hv

/-- Where the host is reticent only the steps of the sessions concern a session. -/
theorem Step.leaves (h : Step k w w') (he : ¬ k.engages)
    (hw : ∀ b, ¬ k.does (.client (.acceptWrites b))) : w.Leaves w' ∨ SessionStep k w w' := by
  have hrecord : ∀ e : Event, e.isOfSession = false → w.Leaves (w.record e) := fun e hes =>
    ⟨rfl, rfl, rfl, rfl, [e], rfl, by simpa using hes⟩
  have hnone : w.events = w.events ++ [] ∧ ∀ e ∈ ([] : List Event), e.isOfSession = false :=
    ⟨(List.append_nil _).symm, List.forall_mem_nil _⟩
  cases h with
  | session step => exact .inr step
  | document step => exact .inl step.leaves
  | note aside => exact .inl (hrecord _ (Event.not_isOfSession_of_isAside aside))
  | @callBack id label kind o _ _ => exact .inl (hrecord (.calledBack label kind o) rfl)
  | send _ _ report => exact .inl (hrecord _ (by simpa [Event.isOfSession] using mt report he))
  | transport step =>
    cases step with
    | arrive answers => exact .inl ⟨rfl, rfl, rfl, rfl, [], hnone⟩
    | accept b allowed => exact absurd allowed (hw b)
  | editor step => exact .inl ⟨rfl, rfl, by cases step <;> rfl, rfl, [], hnone⟩
  | controller found step =>
    refine .inl ⟨rfl, rfl, rfl, ?_, [], hnone⟩
    rw [found]
    cases step <;> rfl
  | _ => exact .inl ⟨rfl, rfl, rfl, rfl, [], hnone⟩

end GhostText
