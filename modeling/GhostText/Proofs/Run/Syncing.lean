import GhostText.Proofs.Run.Editing
import GhostText.Proofs.Run.Requests
import GhostText.Proofs.Wire.Messages

/-!
# The controller makes rows of steps

Opening and closing documents, telling changes, and taking on settings. Settings change only with an
action of the host that changes them.
-/

namespace GhostText

variable {k : Regime} {w : World}

namespace World

theorem leads_dropChange (w : World) : Leads k w w.dropChange :=
  leads_updateController (fun _ => .dropChange) w

/-- The host keeps the subscribers and the settings it has. -/
theorem leads_updateHost {f : Host → Host} (hf : (f w.host).subscribers = w.host.subscribers)
    (hb : (f w.host).settings = w.host.settings) : Leads k w (w.updateHost f) :=
  .of_sound fun hs =>
    .single (.host (hf ▸ hs.bound.subscribers) (Or.inl hb))
      (congrArg (fun s => { w.scene with subscribers := s }) hf) rfl

/-! ## Documents -/

theorem documentNotice?_of_fields (method : String) (fields : Fields) :
    (Message.notification method (.obj fields)).toJson.documentNotice? =
      DocumentNotice.ofMethod? method
        (((Json.obj fields).fieldD "textDocument").fieldD "uri").textOrEmpty := by
  rw [Json.documentNotice?, Message.classify_notification]

theorem documentNotice?_openingOf (uri : String) (languageId text : Json) :
    (openingOf (.str uri) languageId text).documentNotice? = some (.opened uri) := by
  rw [openingOf, documentNotice?_of_fields]
  simp [DocumentNotice.ofMethod?]

/-- A change that is told is a notice of its document. -/
theorem documentNotice?_changeOf (uri : String) (version : Int) (entries : List Json) :
    (changeOf (.str uri) version entries).documentNotice? = some (.changed uri) := by
  rw [changeOf, documentNotice?_of_fields]
  simp [DocumentNotice.ofMethod?]

/-- What tells the server of the document concerns no session. -/
theorem goes_document {w' : World} (h : DocumentStep w w') : Goes k w w' := by
  have hw := h.informs
  obtain ⟨es, he, -⟩ := hw.events
  refine .single (.document h) ?_ ⟨es, he⟩ hw.client
  simp only [scene, canvas, hw.host, hw.editor, hw.sessions, slot?, hw.session]

theorem goes_openPath (path : Json) (w : World) : Goes k w (openPath path w).2 := by
  have hfile : Goes k w (w.updateFetches fun t =>
      { t with activeFile := .str path.shown, languageId := .str w.editor.languageId }) :=
    .single (.fetches (.file ..)) rfl ⟨[], (List.append_nil _).symm⟩ rfl
  unfold openPath
  cases uriOf path with
  | error f => exact hfile
  | ok uri => exact hfile.trans (goes_document (.openUnder uri))

theorem goes_openDocument (w : World) : Goes k w (openDocument w).2 := by
  unfold openDocument
  split
  · exact (Leads.refl w).toGoes
  · exact goes_openPath ..

theorem goes_didClose (uri : Json) (w : World) : Goes k w (w.didClose uri) := by
  have hsent : Goes k w (w.transmit (Message.notification "textDocument/didClose" (.obj
      [("textDocument", .obj [("uri", .str uri.textOrEmpty)])])).toJson).2 := by
    unfold transmit
    split
    · next ha =>
      have hd : isDocumentMethod "textDocument/didClose" = false := by decide
      have hr : reportMethods.contains "textDocument/didClose" = false := by decide
      refine .single (.send ha (fun ht => ?_) fun ht => ?_) rfl ⟨[.sent _], rfl⟩ rfl
      · simp [tellsOfDocument_notification hd] at ht
      · rw [isReport_notification hr] at ht
        cases ht
    · exact (Leads.refl w).toGoes
  exact hsent.trans (addsAsides_afterWrite _ _).leads.toGoes

theorem goes_closePath (path : Json) (w : World) : Goes k w (closePath path w).2 := by
  unfold closePath
  split
  · exact (Leads.refl w).toGoes
  · cases uriOf path with
    | error f => exact (Leads.refl w).toGoes
    | ok uri => exact goes_didClose ..

/-- To go over to another file is to close one document and to open the other. -/
theorem goes_switchFile (newPath oldPath : Json) (w : World) :
    Goes k w (switchFile newPath oldPath w).2 := by
  have hclose := (leads_rejectCurrent (k := k) "superseded" w).toGoes.trans
    (goes_closePath oldPath _)
  unfold switchFile
  generalize closePath oldPath _ = r at hclose ⊢
  obtain ⟨_ | _, w₁⟩ := r
  · exact hclose
  · have hdrop := hclose.trans (leads_dropChange w₁).toGoes
    dsimp only
    split
    · exact hdrop.trans (goes_openPath ..)
    · exact hdrop

/-- A host that may turn to another file does not stay with the one it has. -/
theorem leads_of_turns {w' : World} {a : Action} (ha : k.does a) (ht : a.turns)
    (h : Goes k w w') : Leads k w w' :=
  ⟨h, fun _ hk => by simp [hk a ha] at ht⟩

theorem leads_didChangeFolders (added removed : Json) (w : World) :
    Leads k w (didChangeFolders added removed w).2 := by
  unfold didChangeFolders
  split
  · exact .refl w
  · exact .refl w
  · exact leads_notify rfl ..

theorem leads_switchFolder (newFolder oldFolder : Json) (w : World) :
    Leads k w (switchFolder newFolder oldFolder w).2 := by
  have hfolder : Leads k w
      (w.updateFetches fun t => { t with workspaceFolder := .str newFolder.textOrEmpty }) :=
    .single (.fetches (.folder _)) rfl rfl
  unfold switchFolder
  dsimp only
  split
  · exact hfolder
  · exact hfolder
  · exact hfolder.trans (leads_didChangeFolders ..)

/-! ## Telling changes -/

theorem leads_logEdits (edits : Option (List TextChange)) (w : World) :
    Leads k w (w.logEdits edits) := by
  cases edits with
  | none => exact .refl w
  | some edits => exact leads_log ..

/-- A change is told of the controller as it is once the change has been taken from it. -/
theorem documentStep_tell {c : Controller} {uri : String} {change : PendingChange}
    {edits : Option (List TextChange)} (hc : w.controller = some c)
    (hu : documentUri w = .ok uri) (he : editsFor c change w = .ok edits) :
    DocumentStep (w.logEdits edits) ((changeVersion (.str uri) (contentChanges change edits)
      (w.logEdits edits)).2.updateController fun c => { c with synced := change.text }) := by
  cases edits with
  | none => exact .tell hc hu he
  | some edits => exact .tell hc hu he

/-- Telling a change leaves the file as it is. -/
theorem sameFile_tell {uri : String} (hu : documentUri w = .ok uri) (change : PendingChange)
    (edits : Option (List TextChange)) (f : Controller → Controller) : w.SameFile
      ((changeVersion (.str uri) (contentChanges change edits) w).2.updateController f) := by
  obtain ⟨-, es, ha, he⟩ := changeVersion_adds (.str uri) (entriesOf change edits) w
  rw [contentChanges_eq, he]
  refine ⟨rfl, rfl, _, rfl, List.forall_mem_append.2 ⟨fun e hm notice hn => ?_, ?_⟩⟩
  · split at hm
    · next haccepting =>
      obtain rfl := List.mem_singleton.1 hm
      refine ⟨haccepting, uri,
        (Option.some.inj ((documentNotice?_changeOf ..).symm.trans hn)).symm, ?_⟩
      intro htruthy
      simpa [documentUri, Json.orElse, htruthy] using hu
    · cases hm
  · intro e hm notice hn
    rw [Event.documentNotice?_of_isQuiet (Event.isQuiet_of_isAside (ha e hm))] at hn
    cases hn

/-- A change is told of the active file. -/
theorem leads_tell {c : Controller} {uri : String} {change : PendingChange}
    {edits : Option (List TextChange)} (hc : w.controller = some c)
    (hu : documentUri w = .ok uri) (he : editsFor c change w = .ok edits) :
    Leads k (w.logEdits edits) ((changeVersion (.str uri) (contentChanges change edits)
      (w.logEdits edits)).2.updateController fun c => { c with synced := change.text }) where
  toGoes := goes_document (documentStep_tell hc hu he)
  file _ _ := by
    have hu' : documentUri (w.logEdits edits) = .ok uri := by cases edits <;> exact hu
    exact sameFile_tell hu' ..

/-- There are steps up to a point at which a completion may be asked for, and steps after it. -/
def AsksOnce (k : Regime) (run : Runner) (w w' : World) : Prop :=
  ∃ w₁ w₂, Leads k w w₁ ∧ (w₂ = w₁ ∨ w₂ = (requestCompletion run w₁).2) ∧ Leads k w₂ w'

namespace AsksOnce

variable {run : Runner} {w' w'' : World}

theorem of_leads (h : Leads k w w') : AsksOnce k run w w' := ⟨w', w', h, .inl rfl, .refl w'⟩

theorem after (h : Leads k w w') (h' : AsksOnce k run w' w'') : AsksOnce k run w w'' := by
  obtain ⟨w₁, w₂, h₁, hask, h₂⟩ := h'
  exact ⟨w₁, w₂, h.trans h₁, hask, h₂⟩

theorem tell {x : Act World Unit} (h : AsksOnce k run w (x w).2) :
    AsksOnce k run w (w.tell x) := by
  obtain ⟨w₁, w₂, h₁, hask, h₂⟩ := h
  exact ⟨w₁, w₂, h₁, hask, h₂.trans (addsAsides_tell x w).leads⟩

end AsksOnce

/-- A change that is told asks for completions at most once. -/
theorem asksOnce_tellChange (run : Runner) (w : World) :
    AsksOnce k run w (tellChange run w).2 := by
  unfold tellChange
  cases hc : w.controller with
  | none => exact .of_leads (.refl w)
  | some c =>
    have htake : Leads k w (w.updateController fun c => { c with pending := none }) :=
      leads_updateController (fun _ => .takeChange) w
    have hc₁ : (w.updateController fun c => { c with pending := none }).controller =
        some { c with pending := none } := by
      simp [updateController, hc]
    dsimp only
    cases c.pending with
    | none => exact .of_leads htake
    | some change =>
      dsimp only
      generalize w.updateController _ = w₁ at htake hc₁ ⊢
      split
      · exact .of_leads htake
      · exact .of_leads htake
      · next uri edits hu he =>
        have hlog := htake.trans (leads_logEdits edits w₁)
        have htell := hlog.trans (leads_tell hc₁ hu he)
        have hok := (changeVersion_adds (.str uri) (entriesOf change edits) (w₁.logEdits edits)).1
        rw [← contentChanges_eq] at hok
        generalize changeVersion _ _ _ = r at htell hok ⊢
        obtain ⟨_ | _, w₂⟩ := r
        · cases hok
        · refine ⟨_, _, htell, .inr rfl, ?_⟩
          dsimp only
          generalize requestCompletion run _ = r
          obtain ⟨_ | _, w₃⟩ := r <;> exact .refl w₃

theorem asksOnce_flush (run : Runner) (w : World) : AsksOnce k run w (flush run w).2 := by
  unfold flush
  split
  · exact .after (leads_updateController (fun _ => .stopTimer) w) (asksOnce_tellChange run _)
  · exact .of_leads (.refl w)

/-- The timer asks for completions at most once. -/
theorem asksOnce_tick (run : Runner) (w : World) : AsksOnce k run w (tick run w) := by
  unfold tick
  split
  · exact .after (leads_updateController (fun _ => .stopTimer) w)
      (.tell (asksOnce_tellChange run _))
  · exact .of_leads (.refl w)

section Running

variable {run : Runner} (hr : run.Steady k)

include hr

section Asking

variable (ha : k.asks)

include ha

theorem leads_requestCompletion (w : World) : Leads k w (requestCompletion run w).2 :=
  have hsink : ∀ task id, k.Awaits id (.fetched task .controller) := fun _ _ => trivial
  (leads_cancelFetches hr w).trans (leads_startFetch hr ha _ hsink (.inl rfl) _)

theorem AsksOnce.leads {w' : World} (h : AsksOnce k run w w') : Leads k w w' := by
  obtain ⟨w₁, w₂, h₁, rfl | rfl, h₂⟩ := h
  · exact h₁.trans h₂
  · exact h₁.trans ((leads_requestCompletion hr ha w₁).trans h₂)

theorem leads_flush (w : World) : Leads k w (flush run w).2 := (asksOnce_flush run w).leads hr ha

theorem leads_tick (w : World) : Leads k w (tick run w) := (asksOnce_tick run w).leads hr ha

end Asking

/-! ## Settings -/

/-- What follows once the controller has its new configuration. -/
theorem leads_configured (config : Config) (w : World) :
    Leads k (w.updateController fun c => { c with config := config }) (configure run config w) := by
  generalize hw : (w.updateController fun c => { c with config := config }) = w₁
  have hfetches : Leads k w₁ (w₁.updateFetches fun t =>
      { t with tabSize := .int config.tabSize, insertSpaces := .bool config.insertSpaces }) :=
    .single (.fetches (.indentation ..)) rfl rfl
  unfold configure
  simp only [hw]
  split
  · exact hfetches.trans ((leads_rejectCurrent ..).trans
      ((leads_cancelFetches hr _).trans (leads_dropChange _)))
  · exact hfetches

section Settings

variable {a : Action} (ha : k.does a) (hs : a.changesSettings)

include ha hs

omit hr in
/-- The host changes the store that the controller follows. -/
theorem leads_bind (b : Binding) (w : World) :
    Leads k w (w.updateHost fun h => { h with binding := some b }) :=
  .of_sound fun hsound => .single (.host hsound.bound.subscribers (Or.inr ⟨a, ha, hs⟩)) rfl rfl

/-- A configuration is taken on in one step, and what it forbids is given up behind it. -/
theorem leads_configure (config : Config) (w : World) : Leads k w (configure run config w) :=
  (leads_updateController (fun _ => .configure config ha hs) w).trans (leads_configured hr config w)

theorem leads_updateSettings (settings : Json) (w : World) :
    Leads k w (updateSettings run settings w).2 := by
  unfold updateSettings
  cases Config.ofJson settings with
  | error f => exact .refl w
  | ok config => exact leads_configure hr ha hs config w

theorem leads_bindSettings (initial : Fields) (w : World) :
    Leads k w (bindSettings run initial w).2 := by
  unfold bindSettings
  cases storeWith initial with
  | error f => exact .refl w
  | ok s => exact (leads_bind ha hs ..).trans (leads_updateSettings hr ha hs ..)

theorem leads_tellBound (n : Nat) (w : World) : Leads k w (tellBound run n w).2 := by
  induction n generalizing w with
  | zero => exact .refl w
  | succ n ih =>
    unfold tellBound
    cases w.host.binding with
    | none => exact .refl w
    | some b =>
      have hupdate := leads_updateSettings hr ha hs (.obj b.store.data) w
      dsimp only
      generalize updateSettings run _ w = r at hupdate ⊢
      obtain ⟨_ | _, w₁⟩ := r
      · exact hupdate
      · exact hupdate.trans (ih w₁)

/-- A setting that is written is told to the listeners, and theirs are rows of steps. -/
theorem leads_storeValue (key : String) (value : Json) (w : World) :
    Leads k w (storeValue run key value w).2 := by
  unfold storeValue
  cases w.host.binding with
  | none => exact .refl w
  | some b =>
    dsimp only
    split
    · exact .refl w
    · exact .refl w
    · next s _ =>
      have htell := (leads_bind ha hs { b with store := s } w).trans
        (leads_tellBound hr ha hs (s.listenersOf key).length _)
      generalize tellBound run _ _ = r at htell ⊢
      obtain ⟨_ | _, w₁⟩ := r
      · exact htell
      · exact htell

end Settings

omit hr in
/-- A store that is followed no longer keeps its settings. -/
theorem leads_unbind (w : World) : Leads k w w.unbind := by
  have hdata : ∀ (listeners : List Nat) (s : Store Unit),
      (listeners.foldl (fun s n => s.unlisten n) s).data = s.data := fun listeners s =>
    List.foldlRecOn (motive := fun s' : Store Unit => s'.data = s.data) listeners _ rfl
      fun _ h _ _ => h
  refine leads_updateHost rfl ?_
  unfold Host.settings
  cases w.host.binding with
  | none => rfl
  | some b => exact congrArg some (hdata b.listeners b.store)

/-- A controller that shuts down gives up its session and its fetches. -/
theorem leads_shutdownController (w : World) : Leads k w (shutdownController run w) :=
  (leads_dropChange w).trans ((leads_rejectCurrent ..).trans ((leads_cancelFetches hr _).trans
    (leads_updateController (fun _ => .stopListening) _)))

end Running

end World

end GhostText
