import GhostText.Proofs.Run.Runs

/-!
# Runs in which only the host itself changes settings

Where no script changes the settings of the controller, an action that does so changes them first,
and all that follows in it happens under the new settings.
-/

namespace GhostText

/-- A host that leaves the document to the controller: it tells the server of no document itself,
changes no settings from inside its scripts, and does not make the transport refuse messages. -/
structure Conduct.KeepsOut (k : Conduct) : Prop where
  documents : ∀ a, k.does a → a.writesDocument = false
  settings : ∀ a, k.does a → a.changesSettings = false
  writes : ¬ k.does (.client (.acceptWrites false))

/-- The host itself may change the settings at any time. -/
def Conduct.Operates (k : Conduct) : List Action → World → Prop
  | [], _ => True
  | a :: rest, w =>
    (a.changesSettings ∨ k.Fits w.client.nextId a) ∧ k.Operates rest (World.act a w).2

theorem Conduct.operates_append {k : Conduct} {before actions : List Action} {w : World} :
    k.Operates (before ++ actions) w ↔
      k.Operates before w ∧ k.Operates actions (w.after before) := by
  induction before generalizing w with
  | nil => simp [Operates]
  | cons a before ih => simp [Operates, ih, and_assoc]

def Action.edits : Action → Bool
  | .editor _ => true
  | .controller .openDocument => true
  | .controller .flush => true
  | _ => false

/-- A host that edits and, beside that, only changes settings. -/
def Conduct.editing : Conduct := ⟨fun a => a.edits, fun _ _ => True⟩

namespace Action

theorem writesDocument_of_edits {a : Action} (h : a.edits) : a.writesDocument = false := by
  unfold edits at h
  split at h <;> simp_all [writesDocument]

theorem changesSettings_of_edits {a : Action} (h : a.edits) : a.changesSettings = false := by
  unfold edits at h
  split at h <;> simp_all [changesSettings]

theorem registered_of_edits {a : Action} (h : a.edits) : a.registered.2 = [] := by
  unfold edits at h
  split at h <;> simp_all [registered]

/-- What a host does in its editor has no scripts in it. -/
theorem inner_of_edits {a : Action} (h : a.edits) : a.inner = [] := by
  unfold edits at h
  split at h <;> simp_all [inner, registered]

end Action

theorem Conduct.keepsOut_editing : Conduct.editing.KeepsOut :=
  ⟨fun _ h => Action.writesDocument_of_edits h, fun _ h => Action.changesSettings_of_edits h, nofun⟩

theorem Conduct.operates_editing {actions : List Action}
    (h : ∀ a ∈ actions, a.changesSettings ∨ a.edits) (w : World) :
    Conduct.editing.Operates actions w := by
  induction actions generalizing w with
  | nil => trivial
  | cons a actions ih =>
    refine ⟨(h a List.mem_cons_self).imp id fun hedits => ⟨hedits, ?_, ?_⟩,
      ih (fun b hb => h b (List.mem_cons_of_mem _ hb)) _⟩
    · simp [Conduct.Registers, Action.registered_of_edits hedits]
    · simp [Action.inner_of_edits hedits]

variable {k : Regime} {w w' : World}

/-! ## Without changes of settings -/

structure World.SameSettings (w w' : World) : Prop where
  config : w'.controller.map Controller.config = w.controller.map Controller.config
  store : w'.host.settings = w.host.settings

/-- No step changes the settings where the scripts do not. -/
theorem Step.sameSettings (h : Step k w w') (hk : k.KeepsOut) : w.SameSettings w' := by
  cases h with
  | @controller c c' found step =>
    cases step with
    | configure config allowed settings => simp [hk.settings _ allowed] at settings
    | _ => exact ⟨by rw [found]; rfl, rfl⟩
  | host allowed settings =>
    refine ⟨rfl, settings.resolve_right ?_⟩
    rintro ⟨a, ha, hs⟩
    simp [hk.settings a ha] at hs
  | session step => exact ⟨step.beside.config, by rw [step.beside.host]⟩
  | document step => exact ⟨step.informs.config, by rw [step.informs.host]⟩
  | _ => exact ⟨rfl, rfl⟩

/-- Along a row of steps the settings stay where the scripts do not change them. -/
theorem Steps.sameSettings (h : Steps k w w') (hk : k.KeepsOut) : w.SameSettings w' := by
  induction h with
  | refl => exact ⟨rfl, rfl⟩
  | tail _ step ih =>
    have hs := step.sameSettings hk
    exact ⟨hs.config.trans ih.config, hs.store.trans ih.store⟩

/-! ## Changes of settings -/

inductive World.Resets (w : World) : World → Prop where
  | intro (config : Controller → Config) (h : Host)
      (subscribers : h.subscribers = w.host.subscribers) : Resets w { w with
        controller := w.controller.map fun c => { c with config := config c }, host := h }

namespace World

theorem Resets.refl (w : World) : w.Resets w := by
  have h := Resets.intro (w := w) Controller.config w.host rfl
  rwa [Option.map_id'] at h

theorem Resets.configure (config : Config) (w : World) :
    w.Resets (w.updateController fun c => { c with config := config }) :=
  .intro (fun _ => config) w.host rfl

theorem Resets.bind (b : Option Binding) (w : World) :
    w.Resets (w.updateHost fun h => { h with binding := b }) := by
  have h := Resets.intro (w := w) Controller.config { w.host with binding := b } rfl
  rwa [Option.map_id'] at h

theorem Resets.trans {w'' : World} (h : w.Resets w') (h' : w'.Resets w'') : w.Resets w'' := by
  obtain ⟨config, host, hs⟩ := h
  obtain ⟨config', host', hs'⟩ := h'
  have h := Resets.intro (w := w) (fun c => config' { c with config := config c }) host'
    (hs'.trans hs)
  simpa only [Option.map_map, Function.comp_def] using h

/-- New settings leave a world sound. -/
theorem Resets.sound (h : w.Resets w') (hs : k.Sound w) : k.Sound w' := by
  obtain ⟨config, host, hsub⟩ := h
  exact ⟨⟨hs.bound.calls, hs.bound.handlers, hsub ▸ hs.bound.subscribers⟩, hs.ledger, hs.held,
    hs.answers⟩

section Running

variable {run : Runner} (hr : run.Steady k)

include hr

/-- The settings change first, and what follows makes steps. -/
theorem resets_updateSettings (settings : Json) (w : World) :
    ∃ w₁, w.Resets w₁ ∧ Leads k w₁ (updateSettings run settings w).2 := by
  unfold updateSettings
  cases Config.ofJson settings with
  | error f => exact ⟨w, .refl w, .refl w⟩
  | ok config => exact ⟨_, .configure config w, leads_configured hr config w⟩

theorem resets_bindSettings (initial : Fields) (w : World) :
    ∃ w₁, w.Resets w₁ ∧ Leads k w₁ (bindSettings run initial w).2 := by
  unfold bindSettings
  cases storeWith initial with
  | error f => exact ⟨w, .refl w, .refl w⟩
  | ok s =>
    obtain ⟨w₁, hw₁, hl⟩ := resets_updateSettings hr (.obj (listenToAll s).2.data)
      (w.updateHost fun h => { h with binding := some ⟨(listenToAll s).2, (listenToAll s).1⟩ })
    exact ⟨w₁, (Resets.bind _ w).trans hw₁, hl⟩

/-- Settings that hold already change nothing. -/
theorem leads_tellBound_again (hk : k.KeepsOut) (n : Nat) {data : Fields} {config : Config}
    (hdata : Config.ofJson (.obj data) = .ok config) {w : World}
    (hconfig : ∀ c ∈ w.controller.map Controller.config, c = config)
    (hstore : w.host.settings = some data) : Leads k w (tellBound run n w).2 := by
  induction n generalizing w with
  | zero => exact .refl w
  | succ n ih =>
    unfold tellBound
    cases hb : w.host.binding with
    | none => exact .refl w
    | some b =>
      obtain rfl : b.store.data = data := by simpa [Host.settings, hb] using hstore
      have hsame : w.controller.map (fun c => { c with config := config }) = w.controller := by
        cases hc : w.controller with
        | none => rfl
        | some c =>
          obtain rfl := hconfig c.config (by simp [hc])
          rfl
      have hagain := leads_configured hr config w
      rw [updateController, hsame] at hagain
      simp only [updateSettings, hdata]
      refine .of_sound fun hs => hagain.trans ?_
      have hkept := (hagain.steps hs).sameSettings hk
      exact ih (hkept.config ▸ hconfig) (hkept.store.trans hstore)

theorem resets_tellBound (hk : k.KeepsOut) (n : Nat) (w : World) :
    ∃ w₁, w.Resets w₁ ∧ Leads k w₁ (tellBound run n w).2 := by
  cases n with
  | zero => exact ⟨w, .refl w, .refl w⟩
  | succ n =>
    unfold tellBound
    cases hb : w.host.binding with
    | none => exact ⟨w, .refl w, .refl w⟩
    | some b =>
      dsimp only
      cases hdata : Config.ofJson (.obj b.store.data) with
      | error f =>
        simp only [updateSettings, hdata]
        exact ⟨w, .refl w, .refl w⟩
      | ok config =>
        simp only [updateSettings, hdata]
        refine ⟨_, .configure config w, .of_sound fun hs => ?_⟩
        have hfirst := leads_configured hr config w
        refine hfirst.trans ?_
        have hkept := (hfirst.steps hs).sameSettings hk
        refine leads_tellBound_again hr hk n hdata ?_ (hkept.store.trans (by
          simp [updateController, Host.settings, hb]))
        rw [hkept.config]
        cases hc : w.controller <;> simp [updateController, hc]

/-- A setting that is written is taken on first, and the rest follows under the new settings. -/
theorem resets_storeValue (hk : k.KeepsOut) (key : String) (value : Json) (w : World) :
    ∃ w₁, w.Resets w₁ ∧ Leads k w₁ (storeValue run key value w).2 := by
  unfold storeValue
  cases w.host.binding with
  | none => exact ⟨w, .refl w, .refl w⟩
  | some b =>
    dsimp only
    split
    · exact ⟨w, .refl w, .refl w⟩
    · exact ⟨w, .refl w, .refl w⟩
    · next s _ =>
      obtain ⟨w₁, hw₁, htell⟩ := resets_tellBound hr hk (s.listenersOf key).length
        (w.updateHost fun h => { h with binding := some { b with store := s } })
      refine ⟨w₁, (Resets.bind _ w).trans hw₁, ?_⟩
      generalize tellBound run _ _ = r at htell ⊢
      obtain ⟨_ | _, w₂⟩ := r
      · exact htell
      · exact htell

/-- An action that changes settings changes them first. -/
theorem resets_performController (hk : k.KeepsOut) {a : ControllerAction}
    (ha : (Action.controller a).changesSettings) (w : World) :
    ∃ w₁, w.Resets w₁ ∧ Leads k w₁ (performController run a w).2 := by
  cases a with
  | updateSettings settings =>
    obtain ⟨w₁, hw₁, hl⟩ := resets_updateSettings hr settings w
    refine ⟨w₁, hw₁, ?_⟩
    unfold performController
    dsimp only
    generalize updateSettings run settings w = r at hl ⊢
    obtain ⟨_ | _, w₂⟩ := r
    · exact hl
    · exact leads_answerConfig hl
  | bindSettings initial => exact resets_bindSettings hr initial w
  | storeValue key value => exact resets_storeValue hr hk key value w
  | _ => cases ha

end Running

/-- An action that changes settings. -/
theorem resets_act (hk : k.KeepsOut) {a : Action} (ha : a.changesSettings) (w : World) :
    ∃ w₁, w.Resets w₁ ∧ Leads k w₁ (act a w).2 := by
  cases a with
  | controller a => exact resets_performController (steady_runTo depthLimit) hk ha w
  | _ => cases ha

end World

end GhostText
