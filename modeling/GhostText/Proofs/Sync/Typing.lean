import GhostText.Proofs.Sync.Mirror

/-!
# What is typed is told

Before a text is typed every session that is shown ends, and so the change that is noted is the text
of the editor. Telling it gives the server this text, and what was typed is told unless it makes the
text that the controller remembers as the latest one. That text may be one the server was never
told, since a change can be dropped that was noted before.
-/

namespace GhostText

/-- The text the server will have once nothing waits to be told. -/
def Controller.due (c : Controller) : Text := (c.pending.map PendingChange.text).getD c.synced

/-- What a controller keeps beside its session. -/
def Controller.withoutSession (c : Controller) : Controller := { c with session := none }

/-- Nobody but the terminal hears of the status. -/
def World.Unwatched (w : World) : Prop :=
  ∀ s ∈ w.assistant.subscriptions, s.topic = .status → s.subscriber = .terminal

instance (w : World) : Decidable w.Unwatched :=
  inferInstanceAs (Decidable (∀ s ∈ w.assistant.subscriptions, _))

theorem World.Unwatched.congr {w w' : World} (hw : w.Unwatched)
    (h : w'.assistant.subscriptions = w.assistant.subscriptions) : w'.Unwatched :=
  fun s hs => hw s (h ▸ hs)

/-- Nobody hears of what a fetch does to the status, and no completion is there before it is asked
for. -/
structure World.Undisturbed (w : World) : Prop where
  unwatched : w.Unwatched
  answers : w.transport.answers.lookup "getCompletions" = none

namespace World

variable {w w' w'' : World} {c : Controller} (run : Runner)

/-! ## Sessions end -/

theorem withoutSession_announceEnd (n : Nat) (w : World) :
    (w.announceEnd n).controller.map Controller.withoutSession =
      w.controller.map Controller.withoutSession := by
  unfold announceEnd
  cases w.session? n with
  | none => rfl
  | some s =>
    dsimp only
    split
    · change (w.controller.map _).map _ = _
      rw [Option.map_map]
      congr 1
      funext c
      dsimp only [Function.comp]
      split <;> rfl
    · rfl

theorem withoutSession_finishRejected (n : Nat) (uuid reason : String) (w : World) :
    (w.finishRejected n uuid reason).controller.map Controller.withoutSession =
      w.controller.map Controller.withoutSession := by
  simp [finishRejected, withoutSession_announceEnd, log, record, notifyRejected, updateSession]

theorem withoutSession_rejectSession (n : Nat) (reason : String) (w : World) :
    (w.rejectSession n reason).2.controller.map Controller.withoutSession =
      w.controller.map Controller.withoutSession := by
  unfold rejectSession
  cases w.session? n with
  | none => rfl
  | some s =>
    dsimp only
    split
    · rfl
    · rw [withoutSession_finishRejected, controller_removeSuggestion]
      rfl

/-- A session that is not shown leaves nothing behind. -/
theorem canvas_rejectSession {n : Nat} (h : ¬ w.Shows n) (reason : String) :
    (w.rejectSession n reason).2.canvas = w.canvas := by
  unfold rejectSession
  cases hs : w.session? n with
  | none => rfl
  | some s =>
    dsimp only
    split
    · rfl
    · next hopen =>
      have hnone : s.artifact = none := by
        by_contra hsome
        exact h ⟨s, hs, by simp_all [Session.isShown, Option.isSome_iff_ne_none]⟩
      simp only [removeSuggestion, hnone, canvas, editor_finishRejected]
      rfl

/-- Where no session is shown the end of the live one leaves the canvas. -/
theorem canvas_rejectCurrent (h : ∀ n, ¬ w.Shows n) (reason : String) :
    (w.rejectCurrent reason).2.canvas = w.canvas := by
  unfold rejectCurrent
  split
  · rfl
  · exact canvas_rejectSession (h _) reason

theorem withoutSession_rejectCurrent (reason : String) (w : World) :
    (w.rejectCurrent reason).2.controller.map Controller.withoutSession =
      w.controller.map Controller.withoutSession := by
  unfold rejectCurrent
  split
  · rfl
  · exact withoutSession_rejectSession ..

/-- Sessions may have ended, and nothing else has happened. -/
structure Hushes (w w' : World) : Prop where
  beside : w.Beside w'
  controller : w'.controller.map Controller.withoutSession =
    w.controller.map Controller.withoutSession
  dims : w.Dims w'

theorem Hushes.refl (w : World) : w.Hushes w := ⟨.refl w, rfl, .refl w⟩

theorem Hushes.trans (h : w.Hushes w') (h' : w'.Hushes w'') : w.Hushes w'' :=
  ⟨h.beside.trans h'.beside, h'.controller.trans h.controller, h.dims.trans h'.dims⟩

/-- A session that ends is shown no more, and the change that waits stays. -/
theorem hushes_rejectSession (n : Nat) (reason : String) (w : World) :
    w.Hushes (w.rejectSession n reason).2 :=
  ⟨beside_rejectSession .., withoutSession_rejectSession .., (rejectSession_dims ..).1⟩

/-- Once all that listen have been told, no session is shown. -/
theorem hushes_tellSessions (ha : w.Attentive) (origin : String)
    (hforth : origin ≠ "undo" ∧ origin ≠ "redo") :
    w.Hushes (tellSessions (hearChange run origin) w) ∧
      ∀ n, ¬ (tellSessions (hearChange run origin) w).Shows n := by
  have hlisten : ∀ n w, hearChange run origin n w = (w.rejectSession n "edit").2 := by
    intro n w
    simp [hearChange, hforth.1, hforth.2]
  -- a session that does not listen any more is not shown any more either
  have hfold : ∀ (l : List Nat) (w : World), w.Attentive →
      w.Hushes (l.foldl (fun w n =>
        if w.editor.listeners.contains n then hearChange run origin n w else w) w) ∧
      ∀ n ∈ l, ¬ (l.foldl (fun w n =>
        if w.editor.listeners.contains n then hearChange run origin n w else w) w).Shows n := by
    intro l
    induction l with
    | nil => exact fun w _ => ⟨.refl w, by simp⟩
    | cons m l ih =>
      intro w ha
      have hstep : ∃ w₁, w₁ = (if w.editor.listeners.contains m then hearChange run origin m w
          else w) ∧ w.Hushes w₁ ∧ ¬ w₁.Shows m := by
        refine ⟨_, rfl, ?_⟩
        split
        · rw [hlisten]
          exact ⟨hushes_rejectSession .., (rejectSession_dims ..).2⟩
        · next hdeaf => exact ⟨.refl w, fun hm => hdeaf (by simpa using ha m hm)⟩
      obtain ⟨w₁, he, hhush, hm⟩ := hstep
      obtain ⟨hrest, hl⟩ := ih w₁ (hhush.dims.attentive ha)
      rw [List.foldl_cons, ← he]
      refine ⟨hhush.trans hrest, fun n hn => ?_⟩
      rcases List.mem_cons.1 hn with rfl | hn
      · exact fun h => hm (hrest.dims.shown n h)
      · exact hl n hn
  obtain ⟨hhush, hl⟩ := hfold w.editor.listeners w ha
  exact ⟨hhush, fun n hn => hl n (ha n (hhush.dims.shown n hn)) hn⟩

/-! ## The change is noted -/

/-- A change is noted unless it makes the text that is remembered as the latest. -/
theorem noteChange_due (hc : w.controller = some c) (enabled : c.config.disableCompletions = false)
    (h : ∀ n, ¬ w.Shows n) : w.noteChange.buffer.text = w.buffer.text ∧
      ∃ c', w.noteChange.controller = some c' ∧
        c'.due = if w.buffer.text = c.latest then c.due else w.buffer.text := by
  unfold noteChange
  rw [hc]
  simp only [enabled, Bool.false_or, decide_eq_true_eq]
  by_cases hlatest : w.buffer.text = c.latest
  · rw [if_pos hlatest, if_pos hlatest]
    exact ⟨rfl, c, hc, rfl⟩
  · simp only [if_neg hlatest]
    have hshows : ∀ n,
        ¬ (w.updateController fun c => { c with latest := w.buffer.text }).Shows n := h
    have hcanvas := canvas_rejectCurrent hshows "edit"
    have hcontroller := withoutSession_rejectCurrent "edit"
      (w.updateController fun c => { c with latest := w.buffer.text })
    generalize (World.rejectCurrent "edit" _).2 = w₁ at hcanvas hcontroller ⊢
    rw [updateController, hc, Option.map_some, Option.map_some, Option.map_eq_some_iff]
      at hcontroller
    obtain ⟨c₁, hc₁, -⟩ := hcontroller
    refine ⟨congrArg (fun c => c.buffer.text) hcanvas, _, by rw [updateController, hc₁]; rfl, rfl⟩

/-- What has changed is noted unless it makes the text that is remembered as the latest. -/
theorem contentChanged_due (unblocked : w.editor.blocked = false) (hc : w.controller = some c)
    (listening : c.listening = true) (enabled : c.config.disableCompletions = false)
    (h : ∀ n, ¬ w.Shows n) : w.Beside w.contentChanged ∧
      w.contentChanged.buffer.text = w.buffer.text ∧
      ∃ c', w.contentChanged.controller = some c' ∧
        c'.due = if w.buffer.text = c.latest then c.due else w.buffer.text := by
  have hheard : w.contentChanged = (w.signal .contentChanged).noteChange := by
    have hc' : (w.signal .contentChanged).controller = some c := hc
    simp [contentChanged, unblocked, hc', listening]
  rw [hheard]
  have hsignal : w.Beside (w.signal .contentChanged) :=
    beside_record (e := .signalled .contentChanged) rfl w
  exact ⟨hsignal.trans (beside_noteChange _),
    noteChange_due (w := w.signal .contentChanged) hc enabled h⟩

/-- What is typed is noted unless it makes the text that is remembered as the latest. -/
theorem insertText_due (ha : w.Attentive) (unblocked : w.editor.blocked = false)
    (hc : w.controller = some c) (listening : c.listening = true)
    (enabled : c.config.disableCompletions = false) (text : Text) :
    w.Beside (insertText run text "input" w) ∧
      ∃ c', (insertText run text "input" w).controller = some c' ∧
        c'.due = if (insertText run text "input" w).buffer.text = c.latest then c.due
          else (insertText run text "input" w).buffer.text := by
  have hsignal : w.Hushes (w.signal (.aboutToChange "input")) :=
    ⟨beside_record (e := .signalled (.aboutToChange "input")) rfl w, rfl, dims_record ..⟩
  obtain ⟨htold, hshows⟩ :=
    hushes_tellSessions run (hsignal.dims.attentive ha) "input" (by decide)
  have hhush : w.Hushes (aboutToChange run "input" w) := by
    rw [aboutToChange, unblocked]
    exact hsignal.trans htold
  have hshows : ∀ n, ¬ (aboutToChange run "input" w).Shows n := by
    rwa [aboutToChange, unblocked]
  unfold insertText
  generalize aboutToChange run "input" w = w₁ at hhush hshows ⊢
  obtain ⟨c₁, hc₁, hsame⟩ : ∃ c₁, w₁.controller = some c₁ ∧
      c₁.withoutSession = c.withoutSession := by
    rw [← Option.map_eq_some_iff, hhush.controller, hc, Option.map_some]
  have hpending : c₁.pending = c.pending := congrArg (fun c => c.pending) hsame
  have hsynced : c₁.synced = c.synced := congrArg (fun c => c.synced) hsame
  have hlatest : c₁.latest = c.latest := congrArg (fun c => c.latest) hsame
  have hconfig : c₁.config = c.config := congrArg (fun c => c.config) hsame
  have hlistening : c₁.listening = c.listening := congrArg (fun c => c.listening) hsame
  have hsplice : w₁.Beside (w₁.updateBuffer fun b => b.splice b.caret b.caret text) :=
    beside_updateCanvas ..
  obtain ⟨hnote, htext, c', hc', hdue⟩ := contentChanged_due
    (w := w₁.updateBuffer fun b => b.splice b.caret b.caret text)
    (hhush.beside.blocked.trans unblocked) hc₁ (hlistening.trans listening)
    (by rw [hconfig, enabled]) hshows
  refine ⟨hhush.beside.trans (hsplice.trans hnote), c', hc', ?_⟩
  rw [hdue, htext, hlatest, Controller.due, hpending, hsynced, Controller.due]

/-! ## The change is told -/

/-- What a request for completions leaves as it is where nobody disturbs it. -/
structure Apart (w w' : World) : Prop where
  editor : w'.editor = w.editor
  controller : w'.controller = w.controller
  transport : w'.transport = w.transport
  subscriptions : w'.assistant.subscriptions = w.assistant.subscriptions
  sessions : w'.sessions = w.sessions

theorem Apart.refl (w : World) : w.Apart w := ⟨rfl, rfl, rfl, rfl, rfl⟩

theorem Apart.trans (h : w.Apart w') (h' : w'.Apart w'') : w.Apart w'' :=
  ⟨h'.editor.trans h.editor, h'.controller.trans h.controller, h'.transport.trans h.transport,
    h'.subscriptions.trans h.subscriptions, h'.sessions.trans h.sessions⟩

theorem Apart.unwatched (h : w.Apart w') (hw : w.Unwatched) : w'.Unwatched :=
  hw.congr h.subscriptions

/-- What goes on apart from a document disturbs nothing of it. -/
theorem Apart.undisturbed (h : w.Apart w') (hw : w.Undisturbed) : w'.Undisturbed :=
  ⟨h.unwatched hw.unwatched, h.transport ▸ hw.answers⟩

theorem Adds.apart {es : List Event} (h : Adds w w' es) : w.Apart w' := by
  subst h
  exact ⟨rfl, rfl, rfl, rfl, rfl⟩

theorem apart_changeStatus (hw : w.Unwatched) (status : Status) :
    w.Apart (changeStatus run status w) := by
  obtain ⟨es, he, -⟩ := addsAsides_changeStatus run hw status
  rw [he]
  exact ⟨rfl, rfl, rfl, rfl, rfl⟩

theorem apart_cancelFetches (hw : w.Unwatched) : w.Apart (cancelFetches run w) := by
  have hcancel : ∀ f : Fetches → Fetches, w.Apart (w.updateFetches f) :=
    fun _ => ⟨rfl, rfl, rfl, rfl, rfl⟩
  exact (hcancel _).trans (apart_changeStatus run ((hcancel _).unwatched hw) _)

/-- A request that is accepted and has no answer yet waits. -/
theorem apart_request (kind : CallKind) (method params : Json)
    (onResult onError : List Continuation) (treatment : Treatment)
    (accepting : w.transport.accepting = true)
    (h : w.transport.answers.lookup method.textOrEmpty = none) :
    w.Apart (request run kind method params onResult onError treatment w).2 := by
  rw [request_eq_post run kind method params onResult onError treatment accepting h]
  have hmade : w.Apart (w.updateClient fun c => c.addCall (.start w.client.nextId
      method.textOrEmpty kind onResult onError) treatment) := ⟨rfl, rfl, rfl, rfl, rfl⟩
  obtain ⟨es, -, he⟩ := post_adds
    (Message.request (.int w.client.nextId) method.textOrEmpty params).toJson _
  exact hmade.trans he.apart

/-- A fetch is begun apart from the document. -/
theorem apart_startFetch (accepting : w.transport.accepting = true) (hw : w.Undisturbed)
    (position : UncheckedPosition) (sink : CompletionSink) :
    w.Apart (startFetch run position sink w).2 := by
  have hstart : ∀ f : Fetches → Fetches, w.Apart (w.updateFetches f) :=
    fun _ => ⟨rfl, rfl, rfl, rfl, rfl⟩
  unfold startFetch
  dsimp only
  generalize hw₁ : reportActivity run true _ = w₁
  have h₁ : w.Apart w₁ := by
    subst hw₁
    exact (hstart _).trans (apart_changeStatus run ((hstart _).unwatched hw.unwatched) _)
  cases relativePath w₁.fetches with
  | error f => exact h₁
  | ok relative =>
    dsimp only
    unfold getCompletions
    cases completionParams _ w₁ with
    | error f => exact h₁
    | ok params =>
      exact h₁.trans (apart_request run _ (.str "getCompletions") _ _ _ _
        (by rw [h₁.transport, accepting]) (h₁.undisturbed hw).answers)

theorem apart_requestCompletion (accepting : w.transport.accepting = true) (hw : w.Undisturbed) :
    w.Apart (requestCompletion run w).2 := by
  have hcancel := apart_cancelFetches run hw.unwatched
  exact hcancel.trans
    (apart_startFetch run (by rw [hcancel.transport, accepting]) (hcancel.undisturbed hw) _ _)

/-- Where the server has said how it wants to be told there are edits to tell, or none. -/
theorem editsFor_ok {n : Int} (kind : syncKind w.client.capabilities = .ok n) (c : Controller)
    (change : PendingChange) : ∃ edits, editsFor c change w = .ok edits := by
  unfold editsFor
  simp only [kind, bind, Except.bind]
  split
  · exact ⟨_, rfl⟩
  · exact ⟨_, rfl⟩

theorem apart_logEdits (edits : Option (List TextChange)) (w : World) :
    w.Apart (w.logEdits edits) := by
  cases edits with
  | none => exact .refl w
  | some edits => exact (adds_record ..).apart

theorem apart_changeVersion (uri : Json) (entries : List Json) (w : World) :
    ∃ version w', changeVersion uri (.arr entries) w = (.ok version, w') ∧ w.Apart w' := by
  obtain ⟨hok, es, -, hadds⟩ := changeVersion_adds uri entries w
  refine ⟨_, _, Prod.ext hok rfl, ?_⟩
  have hversion : w.Apart
      { w with assistant := { w.assistant with version := w.assistant.version + 1 } } :=
    ⟨rfl, rfl, rfl, rfl, rfl⟩
  exact hversion.trans hadds.apart

/-- When the change that waits is told, its text is the one the server has. -/
theorem tellChange_synced {uri : String} {n : Int} {change : PendingChange}
    (hc : w.controller = some c) (hp : c.pending = some change)
    (document : documentUri w = .ok uri) (kind : syncKind w.client.capabilities = .ok n)
    (accepting : w.transport.accepting = true) (hw : w.Undisturbed) :
    (tellChange run w).2.editor = w.editor ∧
      (tellChange run w).2.controller.map Controller.synced = some change.text := by
  generalize htaken : w.updateController (fun c => { c with pending := none }) = w₁
  obtain ⟨edits, hedits⟩ : ∃ edits, editsFor c change w₁ = .ok edits :=
    editsFor_ok (by rw [← htaken]; exact kind) c change
  have hdocument : documentUri w₁ = .ok uri := by rw [← htaken]; exact document
  have hlog := apart_logEdits edits w₁
  obtain ⟨version, w₂, hversion, hsent⟩ :=
    apart_changeVersion (.str uri) (entriesOf change edits) (w₁.logEdits edits)
  have hsent := hlog.trans hsent
  have hc₁ : w₁.controller = some { c with pending := none } := by
    rw [← htaken, updateController, hc]
    rfl
  -- the request for completions comes last
  have hrequest := apart_requestCompletion run
    (w := w₂.updateController fun c => { c with synced := change.text })
    (show w₂.transport.accepting = true by rw [hsent.transport, ← htaken]; exact accepting)
    ⟨hw.unwatched.congr (hsent.subscriptions.trans (htaken ▸ rfl)),
      hsent.transport ▸ htaken ▸ hw.answers⟩
  have htold : (tellChange run w).2 =
      (requestCompletion run
        (w₂.updateController fun c => { c with synced := change.text })).2 := by
    unfold tellChange
    simp only [hc, htaken, hp, hdocument, hedits, contentChanges_eq, hversion]
    generalize requestCompletion run _ = r
    obtain ⟨_ | _, w₃⟩ := r <;> rfl
  rw [htold, hrequest.editor, hrequest.controller]
  refine ⟨hsent.editor.trans (by rw [← htaken]; rfl), ?_⟩
  rw [updateController, hsent.controller, hc₁]
  rfl

/-- Telling the change that waits gives the server the text that is due, and leaves the editor as it
is. -/
theorem flush_due {uri : String} {n : Int} (hc : w.controller = some c)
    (document : documentUri w = .ok uri) (kind : syncKind w.client.capabilities = .ok n)
    (accepting : w.transport.accepting = true) (hw : w.Undisturbed) :
    (flush run w).2.editor = w.editor ∧
      (flush run w).2.controller.map Controller.synced = some c.due := by
  unfold flush
  cases hp : c.pending with
  | none => simp [hc, hp, Controller.due]
  | some change =>
    have htimer : (w.updateController fun c => { c with timer := none }).controller =
        some { c with timer := none } := by
      rw [updateController, hc]
      rfl
    simp only [hc, Option.any_some, hp, Option.isSome_some, if_true]
    rw [Controller.due, hp]
    exact tellChange_synced run htimer hp document kind accepting ⟨hw.unwatched, hw.answers⟩

/-- A text is typed and the change is told: the server then has the text of the editor, or the one it
was due to have where nothing was noted. -/
theorem synced_typed (ha : w.Attentive) (unblocked : w.editor.blocked = false)
    (hc : w.controller = some c) (listening : c.listening = true)
    (enabled : c.config.disableCompletions = false) (hw : w.Undisturbed) {uri : String} {n : Int}
    (document : documentUri w = .ok uri) (kind : syncKind w.client.capabilities = .ok n)
    (accepting : w.transport.accepting = true) (text : Text) :
    (flush run (insertText run text "input" w)).2.controller.map Controller.synced =
      some (if (flush run (insertText run text "input" w)).2.buffer.text = c.latest then c.due
        else (flush run (insertText run text "input" w)).2.buffer.text) := by
  obtain ⟨htyped, c', hc', hdue⟩ :=
    insertText_due run ha unblocked hc listening enabled text
  generalize insertText run text "input" w = w₁ at htyped hc' hdue ⊢
  have hdocument : documentUri w₁ = .ok uri := by
    rw [documentUri, htyped.fetches, htyped.filePath]
    exact document
  obtain ⟨heditor, hsynced⟩ := flush_due run hc' hdocument
    (by rw [htyped.client, kind]) (by rw [htyped.transport, accepting])
    ⟨hw.unwatched.congr (by rw [htyped.assistant]), htyped.transport ▸ hw.answers⟩
  have hbuffer : (flush run w₁).2.buffer = w₁.buffer :=
    congrArg (fun e => e.canvas.buffer) heditor
  rw [hsynced, hbuffer, hdue]

/-! ## Runs -/

/-- After a text was typed and the change was told, the server has the text of the editor, unless
the text of the editor is the one that the controller remembers as the latest and the server was
due to have another one. -/
theorem replica_eq_text_iff {k : Conduct} {t : Transport} {setup : ClientSetup}
    (begins : Begins t setup w) (equips : k.Equips setup) (accepting : t.accepting = true)
    (controlled : w.controller.isSome = true) (keepsOut : k.KeepsOut) {actions : List Action}
    {text : Json}
    (operates : k.Operates (actions ++ [.editor (.type text), .controller .flush]) w)
    {copy : Replica} (opened : w.replica actions none = .ok (some copy))
    (controller : (w.after actions).controller = some c) (listening : c.listening = true)
    (enabled : c.config.disableCompletions = false)
    (unblocked : (w.after actions).editor.blocked = false)
    (undisturbed : (w.after actions).Undisturbed) {uri : String} {n : Int}
    (document : documentUri (w.after actions) = .ok uri)
    (kind : syncKind (w.after actions).client.capabilities = .ok n) :
    ∃ copy', w.replica (actions ++ [.editor (.type text), .controller .flush]) none =
        .ok (some copy') ∧
      (copy'.text =
        (w.after (actions ++ [.editor (.type text), .controller .flush])).buffer.text ↔
        ((w.after (actions ++ [.editor (.type text), .controller .flush])).buffer.text = c.latest →
          c.due = c.latest)) := by
  obtain ⟨before, last⟩ := Conduct.operates_append.1 operates
  obtain ⟨r, hr, hkept⟩ := (begins.kept equips accepting controlled).after keepsOut before
  obtain rfl := Except.ok.inj (hr.symm.trans opened)
  obtain ⟨r', hr', hkept'⟩ := hkept.after keepsOut last
  obtain ⟨copy', rfl⟩ := Option.isSome_iff_exists.1 (isSome_of_replica hr' rfl)
  refine ⟨copy', by rw [replica_append, hr]; exact hr', ?_⟩
  rw [after_append]
  generalize w.after actions = w₁ at *
  have hafter : w₁.after [.editor (.type text), .controller .flush] =
      (flush (runTo depthLimit)
        (insertText (runTo depthLimit) text.textOrEmpty.toList "input" w₁)).2 := rfl
  have hsynced := synced_typed (runTo depthLimit) hkept.attentive unblocked controller listening
    enabled undisturbed document kind hkept.accepting text.textOrEmpty.toList
  rw [hafter] at hkept' ⊢
  generalize (flush _ (insertText _ _ "input" w₁)).2 = w₂ at hsynced hkept' ⊢
  obtain ⟨c', hc', hmirror⟩ := hkept'.mirrors
  rw [hc', Option.map_some, Option.some.injEq] at hsynced
  rw [(hmirror copy' rfl).1, hsynced]
  split
  · next hlatest => simp [hlatest]
  · next hlatest => simp [hlatest]

theorem replica_eq_text_twice :
    let t : Transport := ⟨true, [], .atOnce, false, []⟩
    let actions : List Action := [.controller .openDocument, .editor (.type (.str "x")),
      .controller .flush]
    let typed : List Action := actions ++ [.editor (.type (.str "y")), .controller .flush]
    ∃ w₀ w, startEditing 1 t ⟨.null, .null, [], []⟩ ⟨.str "ab", .str "/a.txt", .null, .lf⟩
        none none none none = .ok w₀ ∧ w₀.withController .null = .ok w ∧
      ∃ copy, w.replica typed none = .ok (some copy) ∧
        copy.text = (w.after typed).buffer.text ∧ copy.text = "abxy".toList := by
  intro t actions typed
  refine ⟨_, _, rfl, rfl, ?_⟩
  have begins : Begins t ⟨.null, .null, [], []⟩ _ :=
    .controller 1 ⟨.str "ab", .str "/a.txt", .null, .lf⟩ none none none none .null rfl rfl
  obtain ⟨copy, hreplica, htext⟩ := replica_eq_text_iff begins (by simp [Conduct.Equips]) rfl rfl
    Conduct.keepsOut_editing
    (show Conduct.editing.Operates (actions ++ [.editor (.type (.str "y")), .controller .flush]) _
      from Conduct.operates_editing (by decide) _)
    (eq_ok_of_toOption (a := some ⟨"abx".toList, [0, 1]⟩) (by decide +kernel))
    (Option.eq_some_of_isSome (by decide +kernel)) (by decide +kernel) (by decide +kernel)
    (by decide +kernel) ⟨by decide +kernel, Option.isNone_iff_eq_none.1 (by decide +kernel)⟩
    (eq_ok_of_toOption (a := "file:///a.txt") (by decide +kernel))
    (eq_ok_of_toOption (a := 0) (by decide +kernel))
  have hcopy := htext.2 (by decide +kernel)
  exact ⟨copy, hreplica, hcopy, hcopy.trans (by decide +kernel)⟩

/-- What was typed, taken back and typed again is lost where completions were switched off while it
was taken back: the change that waited was dropped, and its text is still remembered. -/
theorem text_lost_though_typed :
    let t : Transport := ⟨true, [], .atOnce, false, []⟩
    let typed : List Action := [.controller .openDocument, .editor (.type (.str "x")),
      .controller (.updateSettings (.obj [("disable_completions", .bool true)])), .editor .undo,
      .controller (.updateSettings (.obj [])), .editor (.type (.str "x")), .controller .flush]
    ∃ w₀ w, startEditing 1 t ⟨.null, .null, [], []⟩ ⟨.str "ab", .str "/a.txt", .null, .lf⟩
        none none none none = .ok w₀ ∧ w₀.withController .null = .ok w ∧
      (w.after typed).controller.map (fun c => c.config.disableCompletions) = some false ∧
      w.replica typed none = .ok (some ⟨"ab".toList, [0]⟩) ∧
      (w.after typed).buffer.text = "abx".toList := by
  intro t typed
  refine ⟨_, _, rfl, rfl, ?_, eq_ok_of_toOption ?_, ?_⟩ <;> decide +kernel

end World

end GhostText
