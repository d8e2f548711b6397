import GhostText.Proofs.Client.Withdrawal
import GhostText.Proofs.Fetch.Lifetime
import GhostText.Proofs.Settings.Values
import GhostText.Proofs.Sync.Typing

/-!
# The change that waits is delivered

When the change that waits is told, the server hears of it once, with the next version, and is then
asked for a completion of that version at the caret. Whatever the server gave as the way it wants to
be told of changes is read as a number, but for an infinite one: with that the change is given up
and nothing is sent.
-/

namespace GhostText

/-! ## How the server wants to be told -/

/-- What the server gave as the way it wants to be told of changes. -/
def Client.syncOption (c : Client) : Json :=
  let sync := c.capabilities.fieldD "textDocumentSync"
  if sync.isObject then sync.fieldD "change" else sync

namespace World

variable {w w' w'' : World} {c : Controller} {change : PendingChange}

/-- An infinite number counts as true, so it is not taken for none, and no other value is
refused. -/
theorem syncKind_eq_error_iff {c : Client} {f : Fault} : syncKind c.capabilities = .error f ↔
    c.syncOption.IsInfinite ∧ f = .infinityAsInteger := by
  unfold syncKind Client.syncOption
  dsimp only
  generalize (if (c.capabilities.fieldD "textDocumentSync").isObject then _ else _) = v
  constructor
  · intro h
    split at h
    · cases h
    · next g hg =>
      split at h
      · cases h
      · next hkind =>
        cases h
        have hg : v.toInteger = .error f := by
          unfold Json.integerOrZero at hg
          split at hg
          · exact hg
          · cases hg
        exact Json.isInfinite_of_no_fallback hg hkind
  · rintro ⟨⟨negative, rfl⟩, rfl⟩
    rfl

/-- The edits are made unless the server's way cannot be read. -/
theorem editsFor_cases (c : Controller) (change : PendingChange) (w : World) :
    (w.client.syncOption.IsInfinite ∧ editsFor c change w = .error .infinityAsInteger) ∨
      ¬ w.client.syncOption.IsInfinite ∧ ∃ edits, editsFor c change w = .ok edits := by
  cases h : syncKind w.client.capabilities with
  | ok n =>
    refine .inr ⟨fun hi => ?_, editsFor_ok h c change⟩
    cases h.symm.trans (syncKind_eq_error_iff.2 ⟨hi, rfl⟩)
  | error f =>
    obtain ⟨hi, rfl⟩ := syncKind_eq_error_iff.1 h
    exact .inl ⟨hi, by simp [editsFor, h, bind, Except.bind]⟩

/-! ## What is sent -/

/-- Nothing happens but that messages are sent. The versions and the calls are counted on from where
they were, and attributes of fetches that can be told stay so. -/
structure Sends (w w' : World) (payloads : List Json) : Prop extends Apart w w' where
  sent : w'.sentPayloads = w.sentPayloads ++ payloads
  version : w'.assistant.version = w.assistant.version
  nextId : w'.client.nextId = w.client.nextId
  typed : w.fetches.Typed → w'.fetches.Typed

theorem Sends.refl (w : World) : w.Sends w [] := ⟨.refl w, (List.append_nil _).symm, rfl, rfl, id⟩

theorem Sends.trans {es es' : List Json} (h : w.Sends w' es) (h' : w'.Sends w'' es') :
    w.Sends w'' (es ++ es') :=
  ⟨h.toApart.trans h'.toApart, by rw [h'.sent, h.sent, List.append_assoc],
    h'.version.trans h.version, h'.nextId.trans h.nextId, fun ht => h'.typed (h.typed ht)⟩

theorem Adds.sends {es : List Event} (h : w.Adds w' es) :
    w.Sends w' (es.filterMap Event.payload?) := by
  have hapart := h.apart
  subst h
  exact ⟨hapart, by simp [sentPayloads], rfl, rfl, id⟩

theorem AddsAsides.sends (h : w.AddsAsides w') : w.Sends w' [] := by
  obtain ⟨es, he, ha⟩ := h
  exact Event.payloads_asides ha ▸ he.sends

/-- A change of the status sends nothing where nobody subscribes. -/
theorem sends_changeStatus (run : Runner) (hw : w.Unwatched) (status : Status) :
    w.Sends (changeStatus run status w) [] := by
  have hchange : w.Sends (w.updateAssistant fun a => { a with status := status }) [] :=
    ⟨⟨rfl, rfl, rfl, rfl, rfl⟩, (List.append_nil _).symm, rfl, rfl, id⟩
  exact hchange.trans (addsAsides_changeStatus run hw status).sends

theorem sends_updateFetches {f : Fetches → Fetches} (hf : w.fetches.Typed → (f w.fetches).Typed) :
    w.Sends (w.updateFetches f) [] :=
  ⟨⟨rfl, rfl, rfl, rfl, rfl⟩, (List.append_nil _).symm, rfl, rfl, hf⟩

theorem sends_cancelFetches (run : Runner) (hw : w.Unwatched) :
    w.Sends (cancelFetches run w) [] := by
  have hcancel : w.Sends (w.updateFetches fun s =>
      { s with underWay := s.underWay.map fun t => { t with cancelled := true } }) [] :=
    sends_updateFetches fun ht => ⟨ht.workspaceFolder, ht.activeFile, ht.tabSize⟩
  exact hcancel.trans (sends_changeStatus run (hcancel.unwatched hw) _)

/-- A request that is accepted is sent. -/
theorem sentPayloads_request (run : Runner) (kind : CallKind) (method params : Json)
    (onResult onError : List Continuation) (treatment : Treatment)
    (accepting : w.transport.accepting = true)
    (h : w.transport.answers.lookup method.textOrEmpty = none) :
    (request run kind method params onResult onError treatment w).2.sentPayloads =
      w.sentPayloads ++
        [(Message.request (.int w.client.nextId) method.textOrEmpty params).toJson] := by
  rw [request_eq_post run kind method params onResult onError treatment accepting h]
  exact sentPayloads_post (w := w.updateClient _) accepting _

/-- Parameters that ask for a completion of a version of the document at a position. -/
def asksAt (version : Nat) (position : Position) (params : Json) : Prop :=
  ∃ doc, params.field? "doc" = some doc ∧ doc.field? "version" = some (.int version) ∧
    doc.field? "position" = some position.toJson

/-- A request for completions is about the document in its latest version, at the caret. -/
theorem completionParams_asksAt {t : Fetches} (ht : t.Typed) (position : Position)
    (relative : Json) (w : World) :
    ∃ params, completionParams (optionsOf position.unchecked relative t) w = .ok params ∧
      asksAt w.assistant.version position params := by
  obtain ⟨tab, htab⟩ := exists_of_isOk ht.tabSize
  have hnone : ∀ v, orGiven .null v = v := fun _ => rfl
  have htold : position.unchecked.toJson = .ok position.toJson := rfl
  have hnumber : (Json.int w.assistant.version).toInteger = .ok (w.assistant.version : Int) := rfl
  unfold completionParams optionsOf
  simp only [hnone, htab, htold, hnumber, bind, Except.bind, pure, Except.pure]
  exact ⟨_, rfl, _, rfl, rfl, rfl⟩

/-- Where nobody is disturbed a fetch is asked for with one request. -/
theorem startFetch_sends (run : Runner) (accepting : w.transport.accepting = true)
    (hw : w.Undisturbed) (ht : w.fetches.Typed) (position : Position) (sink : CompletionSink) :
    ∃ id params, (startFetch run position.unchecked sink w).1 = .ok id ∧
      asksAt w.assistant.version position params ∧
      (startFetch run position.unchecked sink w).2.sentPayloads = w.sentPayloads ++
        [(Message.request (.int w.client.nextId) "getCompletions" params).toJson] := by
  have henlist : w.Sends w.enlist [] :=
    sends_updateFetches fun ht => ⟨ht.workspaceFolder, ht.activeFile, ht.tabSize⟩
  have hreport := henlist.trans
    (sends_changeStatus run (henlist.unwatched hw.unwatched) .inProgress)
  rw [startFetch_eq]
  generalize changeStatus run .inProgress w.enlist = w₁ at hreport ⊢
  obtain ⟨relative, hrelative⟩ := relativePath_typed (hreport.typed ht)
  obtain ⟨params, hparams, hasks⟩ :=
    completionParams_asksAt (hreport.typed ht) position relative w₁
  have hsent := sentPayloads_request run .query (.str "getCompletions") params
    [.fetched (w.fetches.started + 1) sink] [.fetchFailed (w.fetches.started + 1)] .completions
    (hreport.transport ▸ accepting) (hreport.transport ▸ hw.answers)
  refine ⟨w.fetches.started + 1, params, ?_⟩
  rw [hrelative]
  simp only [getCompletions, hparams, Bool.false_eq_true, if_false]
  refine ⟨trivial, hreport.version ▸ hasks, ?_⟩
  rw [hsent, hreport.sent, hreport.nextId, List.append_nil, List.append_nil]
  rfl

/-- Once the fetches under way were given up, a completion is asked for at the caret. -/
theorem requestCompletion_sends (run : Runner) (accepting : w.transport.accepting = true)
    (hw : w.Undisturbed) (ht : w.fetches.Typed) :
    ∃ id params, (requestCompletion run w).1 = .ok id ∧
      asksAt w.assistant.version w.buffer.caretPosition params ∧
      (requestCompletion run w).2.sentPayloads = w.sentPayloads ++
        [(Message.request (.int w.client.nextId) "getCompletions" params).toJson] := by
  have hcancel := sends_cancelFetches run hw.unwatched
  have hbuffer : (cancelFetches run w).buffer = w.buffer :=
    congrArg (fun e => e.canvas.buffer) hcancel.editor
  obtain ⟨id, params, hok, hasks, hsent⟩ := startFetch_sends run
    (hcancel.transport ▸ accepting) (hcancel.undisturbed hw) (hcancel.typed ht)
    (cancelFetches run w).buffer.caretPosition .controller
  refine ⟨id, params, hok, ?_, ?_⟩
  · rwa [hcancel.version, hbuffer] at hasks
  · rw [hcancel.sent, hcancel.nextId, List.append_nil] at hsent
    exact hsent

/-- The next version of the document is told. -/
theorem changeVersion_sends (accepting : w.transport.accepting = true) (uri : Json)
    (entries : List Json) : ∃ w',
      changeVersion uri (.arr entries) w = (.ok (w.assistant.version + 1), w') ∧
      (w.updateAssistant fun a => { a with version := a.version + 1 }).Sends w'
        [changeOf uri (w.assistant.version + 1 : Nat) entries] := by
  obtain ⟨hversion, es, ha, hadds⟩ := changeVersion_adds uri entries w
  refine ⟨_, Prod.ext hversion rfl, ?_⟩
  have hsends := Adds.sends hadds
  rw [accepting, if_pos rfl, List.filterMap_append, Event.payloads_asides ha, List.append_nil]
    at hsends
  exact hsends

/-! ## Telling the change -/

/-- A path that is a text has a URI. -/
theorem documentUri_typed (ht : w.fetches.Typed) : ∃ uri, documentUri w = .ok uri := by
  obtain ⟨file, hfile⟩ := exists_of_isText ht.activeFile
  obtain ⟨path, hpath⟩ : ∃ path, w.fetches.activeFile.orElse (.str w.editor.filePath) =
      .str path := by
    rw [hfile, Json.orElse]
    split
    · exact ⟨_, rfl⟩
    · exact ⟨_, rfl⟩
  unfold documentUri
  rw [hpath]
  dsimp only
  split
  · exact ⟨_, rfl⟩
  · exact ⟨_, rfl⟩

/-- With an infinite number for the server's way the change is taken and then given up. -/
theorem tellChange_infinite (run : Runner) (hc : w.controller = some c)
    (hp : c.pending = some change) (typed : w.fetches.Typed)
    (infinite : w.client.syncOption.IsInfinite) : tellChange run w =
      (.error .infinityAsInteger, w.updateController fun c => { c with pending := none }) := by
  obtain ⟨uri, huri⟩ := documentUri_typed typed
  have huri₁ : documentUri (w.updateController fun c => { c with pending := none }) = .ok uri :=
    huri
  have hedits : editsFor c change (w.updateController fun c => { c with pending := none }) =
      .error .infinityAsInteger :=
    ((editsFor_cases c change _).resolve_right fun h => h.1 infinite).2
  unfold tellChange
  rw [hc]
  simp only [hp, huri₁, hedits]

/-- The edits are logged, and the change is told with the next version. -/
theorem changeVersion_logged_sends (accepting : w.transport.accepting = true) (uri : Json)
    (change : PendingChange) (edits : Option (List TextChange)) : ∃ w',
      changeVersion uri (contentChanges change edits) (w.logEdits edits) =
        (.ok (w.assistant.version + 1), w') ∧
      (w.updateAssistant fun a => { a with version := a.version + 1 }).Sends w'
        [changeOf uri (w.assistant.version + 1 : Nat) (entriesOf change edits)] := by
  rw [contentChanges_eq]
  cases edits with
  | none => exact changeVersion_sends accepting uri _
  | some edits =>
    obtain ⟨w', hchange, hsent⟩ := changeVersion_sends (w := w.logEdits (some edits)) accepting uri
      (entriesOf change (some edits))
    exact ⟨w', hchange, (addsAsides_log ..).sends.trans hsent⟩

/-- With any other value the change is told once, and then a completion is asked for. -/
theorem tellChange_sends (run : Runner) (hc : w.controller = some c) (hp : c.pending = some change)
    (accepting : w.transport.accepting = true) (hw : w.Undisturbed) (typed : w.fetches.Typed)
    (finite : ¬ w.client.syncOption.IsInfinite) : ∃ uri edits params,
      documentUri w = .ok uri ∧ editsFor c change w = .ok edits ∧
      asksAt (w.assistant.version + 1) w.buffer.caretPosition params ∧
      (tellChange run w).1 = .ok () ∧
      (tellChange run w).2.controller = some { c with pending := none, synced := change.text } ∧
      (tellChange run w).2.sentPayloads = w.sentPayloads ++
        [changeOf (.str uri) (w.assistant.version + 1 : Nat) (entriesOf change edits),
          (Message.request (.int w.client.nextId) "getCompletions" params).toJson] := by
  obtain ⟨uri, huri⟩ := documentUri_typed typed
  obtain ⟨-, edits, hedits⟩ := (editsFor_cases c change w).resolve_left fun h => finite h.1
  -- the change is taken, which leaves all that counts here as it is
  have huri₁ : documentUri (w.updateController fun c => { c with pending := none }) = .ok uri :=
    huri
  have hedits₁ : editsFor c change (w.updateController fun c => { c with pending := none }) =
      .ok edits := hedits
  obtain ⟨w₁, hchange, hsent⟩ := changeVersion_logged_sends
    (w := w.updateController fun c => { c with pending := none }) accepting (.str uri) change edits
  have haccepting : (w₁.updateController fun c =>
      { c with synced := change.text }).transport.accepting = true :=
    (congrArg Transport.accepting hsent.transport).trans accepting
  have hstill : (w₁.updateController fun c => { c with synced := change.text }).Undisturbed :=
    ⟨hw.unwatched.congr hsent.subscriptions, hsent.transport ▸ hw.answers⟩
  obtain ⟨id, params, hok, hasks, hasked⟩ :=
    requestCompletion_sends run haccepting hstill (hsent.typed typed)
  have htold : tellChange run w = (.ok (), (requestCompletion run
      (w₁.updateController fun c => { c with synced := change.text })).2) := by
    unfold tellChange
    simp only [hc, hp, huri₁, hedits₁, hchange]
    generalize requestCompletion run _ = r at hok ⊢
    obtain ⟨_, w₂⟩ := r
    obtain rfl : _ = Except.ok id := hok
    rfl
  rw [htold]
  refine ⟨uri, edits, params, huri, hedits, ?_, rfl, ?_, ?_⟩
  · have hversion : w₁.assistant.version = w.assistant.version + 1 := hsent.version
    have hbuffer : w₁.buffer = w.buffer := congrArg (fun e => e.canvas.buffer) hsent.editor
    exact hversion ▸ hbuffer ▸ hasks
  · have htaken : w₁.controller = w.controller.map fun c => { c with pending := none } :=
      hsent.controller
    rw [(apart_requestCompletion run haccepting hstill).controller, updateController, htaken, hc]
    rfl
  · have hnext : w₁.client.nextId = w.client.nextId := hsent.nextId
    have hpayloads : w₁.sentPayloads = w.sentPayloads ++
        [changeOf (.str uri) (w.assistant.version + 1 : Nat) (entriesOf change edits)] := hsent.sent
    rw [hasked]
    change w₁.sentPayloads ++ [(Message.request (.int w₁.client.nextId) _ _).toJson] = _
    rw [hpayloads, hnext, List.append_assoc]
    rfl

/-- Flushing delivers the change that waits, whatever the server gave as the way it wants to be told
of changes, unless that is an infinite number. The change is told once with the next version, and
then one completion of that version is asked for at the caret. With an infinite number the operation
fails and nothing is sent; in either case no change waits any more. -/
theorem flush_delivers (run : Runner) (hc : w.controller = some c) (hp : c.pending = some change)
    (accepting : w.transport.accepting = true) (undisturbed : w.Undisturbed)
    (typed : w.fetches.Typed) :
    (¬ w.client.syncOption.IsInfinite → ∃ uri edits params,
      documentUri w = .ok uri ∧ editsFor c change w = .ok edits ∧
      asksAt (w.assistant.version + 1) w.buffer.caretPosition params ∧
      (flush run w).1 = .ok () ∧
      (flush run w).2.controller =
        some { c with pending := none, timer := none, synced := change.text } ∧
      (flush run w).2.sentPayloads = w.sentPayloads ++
        [changeOf (.str uri) (w.assistant.version + 1 : Nat) (entriesOf change edits),
          (Message.request (.int w.client.nextId) "getCompletions" params).toJson]) ∧
    (w.client.syncOption.IsInfinite →
      (flush run w).1 = .error .infinityAsInteger ∧
      (flush run w).2.controller = some { c with pending := none, timer := none } ∧
      (flush run w).2.sentPayloads = w.sentPayloads) := by
  have hstopped : (w.updateController fun c => { c with timer := none }).controller =
      some { c with timer := none } := by
    rw [updateController, hc]
    rfl
  have hflush : flush run w =
      tellChange run (w.updateController fun c => { c with timer := none }) := by
    unfold flush
    rw [hc]
    simp [hp]
  rw [hflush]
  refine ⟨fun finite => ?_, fun infinite => ?_⟩
  · exact tellChange_sends run hstopped hp accepting ⟨undisturbed.unwatched, undisturbed.answers⟩
      typed finite
  · rw [tellChange_infinite run hstopped hp typed infinite]
    refine ⟨rfl, ?_, rfl⟩
    rw [updateController, hstopped]
    rfl

/-- A server that gave a list as its way of being told. -/
theorem flush_delivers_listed :
    let sync : Json := .obj [("change", .arr [.int 2])]
    let started : Json := .obj [("capabilities", .obj [("textDocumentSync", sync)])]
    let actions : List Action := [.client (.startServer (.obj []) ⟨none, none⟩),
      .client (.receive (Frame.encode (Message.response (.int 1) started none).toJson)),
      .controller .openDocument, .editor (.type (.str "x"))]
    ∃ w₀ w, startEditing 1 ⟨true, [], .atOnce, false, []⟩ ⟨.null, .null, [], []⟩
        ⟨.str "ab", .str "/a.txt", .null, .lf⟩ none none none none = .ok w₀ ∧
      w₀.withController .null = .ok w ∧
      (w.after actions).client.syncOption.isStructured = true ∧
      (flush (runTo depthLimit) (w.after actions)).1 = .ok () ∧
      (flush (runTo depthLimit) (w.after actions)).2.sentPayloads.length =
        (w.after actions).sentPayloads.length + 2 := by
  intro sync started actions
  refine ⟨_, _, rfl, rfl, ?_⟩
  generalize hw : World.after actions _ = w
  have hstructured : w.client.syncOption.isStructured = true := by
    rw [← hw]
    decide +kernel
  have hpending : (w.controller.bind Controller.pending).isSome = true := by
    rw [← hw]
    decide +kernel
  obtain ⟨change, hchange⟩ := Option.isSome_iff_exists.1 hpending
  obtain ⟨c, hc, hp⟩ := Option.bind_eq_some_iff.1 hchange
  have finite : ¬ w.client.syncOption.IsInfinite := by
    rintro ⟨negative, hinfinite⟩
    rw [hinfinite] at hstructured
    cases hstructured
  have accepting : w.transport.accepting = true := by
    rw [← hw]
    decide +kernel
  have undisturbed : w.Undisturbed := by
    rw [← hw]
    exact ⟨by decide +kernel, Option.isNone_iff_eq_none.1 (by decide +kernel)⟩
  have typed : w.fetches.Typed := by
    rw [← hw]
    exact ⟨by decide +kernel, by decide +kernel, by decide +kernel⟩
  obtain ⟨uri, edits, params, -, -, -, hok, -, hsent⟩ :=
    (flush_delivers (runTo depthLimit) hc hp accepting undisturbed typed).1 finite
  exact ⟨hstructured, hok, by rw [hsent, List.length_append]; rfl⟩

/-- An infinite number in the server's capabilities loses what was typed: the change is taken, and
the operation fails before it is told. -/
theorem change_lost_at_infinity :
    let started : Json := .obj [("capabilities", .obj
      [("textDocumentSync", .float (.infinity false))])]
    let actions : List Action := [.client (.startServer (.obj []) ⟨none, none⟩),
      .client (.receive (Frame.encode (Message.response (.int 1) started none).toJson)),
      .controller .openDocument, .editor (.type (.str "x"))]
    ∃ w₀ w, startEditing 1 ⟨true, [], .atOnce, false, []⟩ ⟨.null, .null, [], []⟩
        ⟨.str "ab", .str "/a.txt", .null, .lf⟩ none none none none = .ok w₀ ∧
      w₀.withController .null = .ok w ∧
      (w.after actions).controller.map Controller.due = some "abx".toList ∧
      (flush (runTo depthLimit) (w.after actions)).1.isOk = false ∧
      (flush (runTo depthLimit) (w.after actions)).2.controller.map Controller.due =
        some "ab".toList ∧
      (flush (runTo depthLimit) (w.after actions)).2.sentPayloads.length =
        (w.after actions).sentPayloads.length := by
  intro started actions
  refine ⟨_, _, rfl, rfl, ?_, ?_, ?_, ?_⟩ <;> decide +kernel

end World

end GhostText
