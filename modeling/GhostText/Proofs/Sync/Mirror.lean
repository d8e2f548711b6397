import GhostText.Proofs.Session.Listening
import GhostText.Proofs.Sync.Replica
import GhostText.Proofs.Sync.Settings

/-!
# The controller knows what the server has

Whoever hears all that is sent has, once the document was opened, the text that the controller holds
for the server's, and has heard of all its versions in order. Only two kinds of steps concern this:
opening the document, and telling a change.
-/

namespace GhostText

variable {k : Regime} {w w' w'' : World} {r r' r'' : Option Replica}

def World.eol (w : World) : LineBreak := (w.controller.map fun c => c.config.eol).getD .lf

/-- The copy of the document, if there is one, is what the controller holds for it. -/
def World.Mirrors (w : World) (r : Option Replica) : Prop :=
  ∃ c, w.controller = some c ∧ ∀ copy ∈ r, copy.text = c.synced ∧
    copy.versions = (List.range (w.assistant.version + 1)).map Int.ofNat

/-- On the way from one world to another a listener comes from one copy to another. -/
structure World.Tells (w : World) (r : Option Replica) (w' : World) (r' : Option Replica) :
    Prop where
  accepting : w'.transport.accepting = true
  eol : w'.eol = w.eol
  heard : ∃ es, w'.events = w.events ++ es ∧ Replica.hearAll w.eol r es = .ok r'
  mirrors : w'.Mirrors r'

namespace World

theorem SameSettings.eol (h : w.SameSettings w') : w'.eol = w.eol := by
  have he (w : World) :
      w.eol = ((w.controller.map Controller.config).map Config.eol).getD .lf := by
    rw [World.eol, Option.map_map]
    rfl
  rw [he, he, h.config]

theorem Tells.refl (ha : w.transport.accepting = true) (hm : w.Mirrors r) : w.Tells r w r :=
  ⟨ha, rfl, ⟨[], (List.append_nil _).symm, rfl⟩, hm⟩

theorem Tells.trans (h : w.Tells r w' r') (h' : w'.Tells r' w'' r'') : w.Tells r w'' r'' := by
  obtain ⟨es, he, hr⟩ := h.heard
  obtain ⟨es', he', hr'⟩ := h'.heard
  refine ⟨h'.accepting, h'.eol.trans h.eol, ⟨es ++ es', ?_, ?_⟩, h'.mirrors⟩
  · rw [he', he, List.append_assoc]
  · rw [Replica.hearAll_append, hr]
    exact h.eol ▸ hr'

/-- What concerns neither the document nor what the controller holds for it. -/
theorem tells_nothing (ha : w'.transport.accepting = true) (hs : w.SameSettings w')
    (hsynced : w'.controller.map Controller.synced = w.controller.map Controller.synced)
    (hversion : w'.assistant.version = w.assistant.version)
    (hevents : ∃ es, w'.events = w.events ++ es ∧ Replica.hearAll w.eol r es = .ok r)
    (hm : w.Mirrors r) : w.Tells r w' r := by
  obtain ⟨c, hc, hcopy⟩ := hm
  refine ⟨ha, hs.eol, hevents, ?_⟩
  rw [hc, Option.map_some, Option.map_eq_some_iff] at hsynced
  obtain ⟨c', hc', hsynced⟩ := hsynced
  exact ⟨c', hc', by rwa [hsynced, hversion]⟩

end World

/-! ## Steps -/

/-- A step of the document tells the server all of it. -/
theorem DocumentStep.tells (h : DocumentStep w w') (ha : w.transport.accepting = true)
    (hm : w.Mirrors r) : ∃ r', w.Tells r w' r' := by
  obtain ⟨c, hc, hcopy⟩ := hm
  cases h with
  | openUnder uri =>
    obtain ⟨es, hes, he⟩ := w.openAtZero_adds (.str uri) (.str w.editor.languageId)
      (.str (String.ofList w.buffer.text))
    rw [he]
    simp only [ha, if_true, World.markOpened, World.updateController, hc, Option.map_some]
    refine ⟨some ⟨w.buffer.text, [0]⟩, ha, by simp [World.eol, hc], ⟨_, rfl, ?_⟩, _, rfl, ?_⟩
    · exact Replica.hearAll_sent (Replica.hear_opening ..) hes
    · simp
  | @tell c' uri change edits controller document told =>
    obtain rfl := Option.some.inj (hc.symm.trans controller)
    obtain ⟨-, es, hes, he⟩ := w.changeVersion_adds (.str uri) (World.entriesOf change edits)
    have heol : w.eol = c.config.eol := by simp [World.eol, hc]
    rw [World.contentChanges_eq, he]
    simp only [ha, if_true, World.updateController, hc, Option.map_some]
    cases r with
    | none =>
      refine ⟨none, ha, by simp [World.eol, hc], ⟨_, rfl, ?_⟩, _, rfl, by simp⟩
      exact Replica.hearAll_sent (Replica.hear_change_none ..) hes
    | some copy =>
      obtain ⟨htext, hversions⟩ := hcopy copy rfl
      refine ⟨some ⟨change.text, copy.versions ++ [((w.assistant.version + 1 : Nat) : Int)]⟩, ha,
        by simp [World.eol, hc], ⟨_, rfl, ?_⟩, _, rfl, ?_⟩
      · refine Replica.hearAll_sent (Replica.hear_change _ _ ?_) hes
        rw [htext, heol]
        exact Replica.foldlM_enter told
      · simp [hversions, List.range_succ (n := w.assistant.version + 1)]

/-- Every step leaves the server with the text that the controller holds for its own. -/
theorem Step.tells (h : Step k w w') (hk : k.KeepsOut) (ha : w.transport.accepting = true)
    (hm : w.Mirrors r) : ∃ r', w.Tells r w' r' := by
  have hsame := h.sameSettings hk
  have hnone : ∃ es, w.events = w.events ++ es ∧ Replica.hearAll w.eol r es = .ok r :=
    ⟨[], (List.append_nil _).symm, rfl⟩
  cases h with
  | note aside =>
    refine ⟨r, World.tells_nothing ha hsame rfl rfl ⟨_, rfl, ?_⟩ hm⟩
    exact Replica.hearAll_of_quiet (by simpa using Event.isQuiet_of_isAside aside)
  | callBack kind o waits settled =>
    exact ⟨r, World.tells_nothing ha hsame rfl rfl ⟨_, rfl, rfl⟩ hm⟩
  | send accepting allowed _ =>
    refine ⟨r, World.tells_nothing ha hsame rfl rfl ⟨_, rfl, Replica.hearAll_sent ?_ ?_⟩ hm⟩
    · refine Replica.hear_of_not_tells (Bool.eq_false_iff.2 fun ht => ?_)
      obtain ⟨a, hdoes, hwrites⟩ := allowed ht
      simp [hk.documents a hdoes] at hwrites
    · exact List.forall_mem_nil _
  | transport step =>
    refine ⟨r, World.tells_nothing ?_ hsame rfl rfl hnone hm⟩
    cases step with
    | arrive answers => exact ha
    | accept b allowed =>
      cases b with
      | true => rfl
      | false => exact absurd allowed hk.writes
  | assistant step => exact ⟨r, World.tells_nothing ha hsame rfl (by cases step <;> rfl) hnone hm⟩
  | version n allowed writes => simp [hk.documents _ allowed] at writes
  | controller found step =>
    refine ⟨r, World.tells_nothing ha hsame ?_ rfl hnone hm⟩
    rw [found]
    cases step <;> rfl
  | session step =>
    obtain ⟨es, he, hq⟩ := step.beside.events
    exact ⟨r, World.tells_nothing (by rw [step.beside.transport, ha]) hsame step.beside.synced
      (by rw [step.beside.assistant]) ⟨es, he, Replica.hearAll_of_quiet hq⟩ hm⟩
  | document step => exact step.tells ha hm
  | _ => exact ⟨r, World.tells_nothing ha hsame rfl rfl hnone hm⟩

/-- Along a row of steps the server has the text that the controller holds for its own. -/
theorem Steps.tells (h : Steps k w w') (hk : k.KeepsOut) (ha : w.transport.accepting = true)
    (hm : w.Mirrors r) : ∃ r', w.Tells r w' r' := by
  induction h with
  | refl => exact ⟨r, .refl ha hm⟩
  | tail _ step ih =>
    obtain ⟨r₁, h₁⟩ := ih
    obtain ⟨r₂, h₂⟩ := step.tells hk h₁.accepting h₁.mirrors
    exact ⟨r₂, h₁.trans h₂⟩

/-! ## Runs -/

namespace World

/-- What a server has made of a run. What is sent in an action is read under the line break that is
configured then. -/
def replica : List Action → World → Option Replica → Except Fault (Option Replica)
  | [], _, r => .ok r
  | a :: rest, w, r => do
    let w' := (act a w).2
    replica rest w' (← Replica.hearAll w'.eol r (w'.events.drop w.events.length))

/-- The server hears of two parts of a run one after the other. -/
theorem replica_append (before actions : List Action) (w : World) (r : Option Replica) :
    w.replica (before ++ actions) r =
      (w.replica before r).bind fun r => (w.after before).replica actions r := by
  induction before generalizing w r with
  | nil => rfl
  | cons a before ih =>
    simp only [List.cons_append, replica, bind]
    cases Replica.hearAll _ r _ with
    | error f => rfl
    | ok r => exact ih ..

/-- What was opened stays open. -/
theorem isSome_of_replica {actions : List Action} (h : w.replica actions r = .ok r')
    (hr : r.isSome = true) : r'.isSome = true := by
  induction actions generalizing w r with
  | nil =>
    cases h
    exact hr
  | cons a actions ih =>
    simp only [replica, bind] at h
    cases hheard : Replica.hearAll (World.act a w).2.eol r
        ((World.act a w).2.events.drop w.events.length) with
    | error f => simp [hheard, Except.bind] at h
    | ok r₁ =>
      rw [hheard] at h
      exact ih h (Replica.isSome_of_hearAll hheard hr)

/-- The world, its listener's copy, and that all is as it should be with both. -/
structure Kept (k : Regime) (w : World) (r : Option Replica) : Prop where
  sound : k.Sound w
  accepting : w.transport.accepting = true
  mirrors : w.Mirrors r
  attentive : w.Attentive

/-- Settings change nothing that was told. -/
theorem Resets.mirrors (h : w.Resets w') (hm : w.Mirrors r) : w'.Mirrors r := by
  obtain ⟨c, hc, hcopy⟩ := hm
  obtain ⟨config, host, -⟩ := h
  exact ⟨{ c with config := config c }, by rw [hc]; rfl, hcopy⟩

/-- One action of the host. -/
theorem Kept.act (h : w.Kept k r) (hk : k.KeepsOut) {a : Action}
    (ha : a.changesSettings ∨ k.Fits w.client.nextId a) : ∃ r',
      Replica.hearAll (act a w).2.eol r ((act a w).2.events.drop w.events.length) = .ok r' ∧
        (World.act a w).2.Kept k r' := by
  have hrow : ∃ w₁, w₁.Kept k r ∧ w₁.events = w.events ∧ Leads k w₁ (World.act a w).2 := by
    rcases ha with hset | hfits
    · obtain ⟨w₁, hw₁, hl⟩ := resets_act hk hset w
      have hsound := hw₁.sound h.sound
      have hmirrors := hw₁.mirrors h.mirrors
      obtain ⟨config, host, -⟩ := hw₁
      exact ⟨_, ⟨hsound, h.accepting, hmirrors, h.attentive⟩, rfl, hl⟩
    · exact ⟨w, h, rfl, leads_act hfits⟩
  obtain ⟨w₁, h₁, hevents, hl⟩ := hrow
  have hsteps := hl.steps h₁.sound
  obtain ⟨r', htells⟩ := hsteps.tells hk h₁.accepting h₁.mirrors
  obtain ⟨es, he, hheard⟩ := htells.heard
  refine ⟨r', ?_, hsteps.sound h₁.sound, htells.accepting, htells.mirrors,
    hsteps.attentive h₁.attentive⟩
  rw [he, hevents, List.drop_left, htells.eol]
  exact hheard

/-- Along a run the server has the text that the controller holds for its own. -/
theorem Kept.after (h : w.Kept k r) (hk : k.KeepsOut) {actions : List Action}
    (ho : k.Operates actions w) :
    ∃ r', w.replica actions r = .ok r' ∧ (w.after actions).Kept k r' := by
  induction actions generalizing w r with
  | nil => exact ⟨r, rfl, h⟩
  | cons a actions ih =>
    obtain ⟨r₁, hheard, h₁⟩ := h.act hk ho.1
    obtain ⟨r₂, hrest, h₂⟩ := ih h₁ ho.2
    refine ⟨r₂, ?_, h₂⟩
    simp only [replica, hheard, bind, Except.bind]
    exact hrest

/-- At the beginning of a run of a controller nobody has heard of a document. -/
theorem Begins.kept {k : Conduct} {t : Transport} {setup : ClientSetup} (h : Begins t setup w)
    (equips : k.Equips setup) (accepting : t.accepting = true)
    (controlled : w.controller.isSome = true) : w.Kept k.free none := by
  have hfresh := h.fresh equips
  obtain ⟨c, hc⟩ := Option.isSome_iff_exists.1 controlled
  refine ⟨hfresh.sound, by rw [hfresh.transport, accepting], ⟨c, hc, nofun⟩, ?_⟩
  rintro n ⟨s, hs, -⟩
  simp [session?, hfresh.sessions] at hs

/-- Once the document has been opened, what a server makes of all it is sent is the text that the
controller holds for the server's, and it has heard of all the versions from zero to the one the
assistant counts, in order. So it is in every run in which the host leaves the document to the
controller: however it edits, goes back, accepts and turns down, changes files and settings,
whatever the server answers and says it can do, and whatever scripts the host has. -/
theorem replica_eq_synced {k : Conduct} {t : Transport} {setup : ClientSetup}
    (begins : Begins t setup w) (equips : k.Equips setup) (accepting : t.accepting = true)
    (controlled : w.controller.isSome = true) (keepsOut : k.KeepsOut) {actions : List Action}
    (operates : k.Operates actions w) :
    ∃ r, w.replica actions none = .ok r ∧ ∀ copy ∈ r,
      (w.after actions).controller.map Controller.synced = some copy.text ∧
        copy.versions = (List.range ((w.after actions).assistant.version + 1)).map Int.ofNat := by
  obtain ⟨r, hr, hkept⟩ := (begins.kept equips accepting controlled).after keepsOut operates
  obtain ⟨c, hc, hcopy⟩ := hkept.mirrors
  refine ⟨r, hr, fun copy hmem => ?_⟩
  obtain ⟨htext, hversions⟩ := hcopy copy hmem
  exact ⟨by rw [hc, Option.map_some, htext], hversions⟩

theorem replica_eq_synced_back_and_forth :
    let t : Transport := ⟨true, [], .atOnce, false, []⟩
    let actions : List Action := [.controller .openDocument, .editor (.type (.str "x")),
      .controller .flush, .controller (.updateSettings (.obj [("use_crlf", .bool true)])),
      .editor .undo, .controller .flush]
    ∃ w₀ w, startEditing 1 t ⟨.null, .null, [], []⟩ ⟨.str "ab", .str "/a.txt", .null, .lf⟩
        none none none none = .ok w₀ ∧ w₀.withController .null = .ok w ∧
      ∃ copy, w.replica actions none = .ok (some copy) ∧
        (w.after actions).controller.map Controller.synced = some copy.text ∧
        copy.versions = [0, 1, 2] := by
  intro t actions
  refine ⟨_, _, rfl, rfl, ?_⟩
  have begins : Begins t ⟨.null, .null, [], []⟩ _ :=
    .controller 1 ⟨.str "ab", .str "/a.txt", .null, .lf⟩ none none none none .null rfl rfl
  obtain ⟨r, hr, hcopy⟩ :=
    replica_eq_synced begins (by simp [Conduct.Equips]) rfl rfl Conduct.keepsOut_editing
      (show Conduct.editing.Operates actions _ from Conduct.operates_editing (by decide) _)
  have hheard : r.map Replica.versions = some [0, 1, 2] := by
    have hr' := congrArg (fun x => x.toOption.join.map Replica.versions) hr
    exact hr'.symm.trans (by decide +kernel)
  obtain ⟨copy, rfl, hversions⟩ := Option.map_eq_some_iff.1 hheard
  exact ⟨copy, hr, (hcopy copy rfl).1, hversions⟩

end World

end GhostText
