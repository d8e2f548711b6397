import GhostText.Proofs.Document.Patch
import GhostText.Proofs.Run.Frame
import GhostText.Proofs.Wire.Messages

/-!
# The server's copy of a document

What a server makes of the messages about a document: the message that opens it gives the text, and
every change gives its entries, to be made one after the other. An entry without a range is the
whole text. Nothing else that is sent changes the copy.
-/

namespace GhostText

/-- A copy of a document, and the versions that were told since it was opened. -/
structure Replica where
  text : Text
  versions : List Int
  deriving DecidableEq, Repr

namespace Replica

def opened (params : Json) : Except Fault Replica := do
  let document := params.fieldD "textDocument"
  return ⟨(document.fieldD "text").textOrEmpty.toList, [← (document.fieldD "version").toInteger]⟩

def enter (b : LineBreak) (document : Text) (entry : Json) : Except Fault Text :=
  match entry.field? "range" with
  | none => .ok (entry.fieldD "text").textOrEmpty.toList
  | some _ => EditItem.applyAll b.text document [.value entry]

def change (b : LineBreak) (params : Json) (r : Replica) : Except Fault Replica := do
  let version ← ((params.fieldD "textDocument").fieldD "version").toInteger
  let entries ← (params.fieldD "contentChanges").items
  return ⟨← entries.foldlM (enter b) r.text, r.versions ++ [version]⟩

/-- What a server makes of a message. A change of a document that is not open is nothing to it. -/
def hear (b : LineBreak) (r : Option Replica) (payload : Json) : Except Fault (Option Replica) :=
  match Message.classify payload with
  | .ok (.notification "textDocument/didOpen" params) => some <$> opened params
  | .ok (.notification "textDocument/didChange" params) =>
    match r with
    | none => .ok none
    | some r => some <$> change b params r
  | _ => .ok r

/-- What a server makes of what happens; it hears only what is sent to it. -/
def hearEvent (b : LineBreak) (r : Option Replica) : Event → Except Fault (Option Replica)
  | .sent payload => hear b r payload
  | _ => .ok r

def hearAll (b : LineBreak) (r : Option Replica) (events : List Event) :
    Except Fault (Option Replica) :=
  events.foldlM (hearEvent b) r

variable {b : LineBreak} {r r' : Option Replica}

/-! ## What does not concern the document -/

/-- A message about anything else leaves the server's copy. -/
theorem hear_of_not_tells {payload : Json} (h : payload.tellsOfDocument = false) :
    hear b r payload = .ok r := by
  unfold hear
  split
  · next hc => simp [Json.tellsOfDocument, hc, isDocumentMethod] at h
  · next hc => simp [Json.tellsOfDocument, hc, isDocumentMethod] at h
  · rfl

theorem hearEvent_of_isQuiet {e : Event} (h : e.isQuiet) : hearEvent b r e = .ok r := by
  cases e with
  | sent payload =>
    exact hear_of_not_tells
      (Json.tellsOfDocument_of_documentNotice? (Event.documentNotice?_of_isQuiet h))
  | _ => rfl

/-- Messages are heard one after another. -/
theorem hearAll_append {es es' : List Event} : hearAll b r (es ++ es') =
    (hearAll b r es).bind fun r => hearAll b r es' := by
  simp [hearAll, List.foldlM_append, bind, Except.bind]

theorem hearAll_of_quiet {es : List Event} (h : ∀ e ∈ es, e.isQuiet) : hearAll b r es = .ok r := by
  induction es with
  | nil => rfl
  | cons e es ih =>
    rw [hearAll, List.foldlM_cons, hearEvent_of_isQuiet (h e List.mem_cons_self)]
    exact ih fun e he => h e (List.mem_cons_of_mem _ he)

/-- A message that is sent, and asides after it. -/
theorem hearAll_sent {payload : Json} {es : List Event}
    (h : hear b r payload = .ok r') (hes : ∀ e ∈ es, e.isAside) :
    hearAll b r (.sent payload :: es) = .ok r' := by
  rw [hearAll, List.foldlM_cons, hearEvent, h]
  exact hearAll_of_quiet fun e he => Event.isQuiet_of_isAside (hes e he)

/-- What was opened stays open. -/
theorem isSome_of_hear {payload : Json} (h : hear b r payload = .ok r') (hr : r.isSome = true) :
    r'.isSome = true := by
  obtain ⟨copy, rfl⟩ := Option.isSome_iff_exists.1 hr
  unfold hear at h
  split at h
  · next params _ =>
    cases ho : opened params <;> rw [ho] at h <;> cases h
    rfl
  · next params _ =>
    cases hc : change b params copy <;> simp only [hc] at h <;> cases h
    rfl
  · cases h
    rfl

/-- A document that was opened stays open. -/
theorem isSome_of_hearAll {es : List Event} (h : hearAll b r es = .ok r') (hr : r.isSome = true) :
    r'.isSome = true := by
  induction es generalizing r with
  | nil =>
    cases h
    exact hr
  | cons e es ih =>
    rw [hearAll, List.foldlM_cons] at h
    obtain ⟨r₁, he, h⟩ := exists_of_bind_eq_ok h
    refine ih h ?_
    cases e with
    | sent payload => exact isSome_of_hear he hr
    | _ =>
      cases he
      exact hr

/-! ## What the controller sends -/

/-- The message that opens a document gives its text and version zero. -/
theorem hear_opening (uri languageId : Json) (text : Text) :
    hear b r (World.openingOf uri languageId (.str (String.ofList text))) =
      .ok (some ⟨text, [0]⟩) := by
  unfold hear World.openingOf
  rw [Message.classify_notification]
  simp [opened, List.lookup_cons, bind, Except.bind, pure, Except.pure]

/-- An entry without a range is the whole text. -/
theorem enter_whole (document text : Text) :
    enter b document (.obj [("text", .str (String.ofList text))]) = .ok text := by
  simp [enter, List.lookup_cons]

theorem enter_toJson (document : Text) (c : TextChange) :
    enter b document c.toJson = EditItem.applyAll b.text document [.value c.toJson] := rfl

/-- The entries of a change are made without a fault and give the new text. -/
theorem foldlM_enter {c : Controller} {change : PendingChange} {w : World}
    {edits : Option (List TextChange)} (h : World.editsFor c change w = .ok edits) :
    (World.entriesOf change edits).foldlM (enter c.config.eol) c.synced = .ok change.text := by
  obtain ⟨kind, -, h⟩ := exists_of_bind_eq_ok h
  split at h
  · obtain rfl := Except.ok.inj h
    simp [World.entriesOf, enter_whole]
  · obtain rfl := Except.ok.inj h
    rw [World.entriesOf, Diff.foldlM_inTurn_of_read fun d e =>
      (enter_toJson d e).trans (Diff.applyAll_single d e)]
    rcases Diff.changes_eq c.config.eol c.synced change.text (some (.position change.caret)) with
      ⟨hsame, he⟩ | ⟨ss, hs, he⟩
    · rw [he, hsame]
      rfl
    · rw [he, hs.foldr_change]

/-- A change makes its entries one after another and gives the next version. -/
theorem hear_change (uri : Json) (version : Nat) {entries : List Json} {text : Text}
    {r : Replica} (h : entries.foldlM (enter b) r.text = .ok text) :
    hear b (some r) (World.changeOf uri version entries) =
      .ok (some ⟨text, r.versions ++ [(version : Int)]⟩) := by
  have hitems : (Json.arr entries).items = .ok entries := rfl
  unfold hear World.changeOf
  rw [Message.classify_notification]
  simp [change, List.lookup_cons, hitems, h, bind, Except.bind, pure, Except.pure]

/-- A change of a document that is not open is passed over. -/
theorem hear_change_none (uri : Json) (version : Nat) (entries : List Json) :
    hear b none (World.changeOf uri version entries) = .ok none := by
  unfold hear World.changeOf
  rw [Message.classify_notification]
  rfl

end Replica

end GhostText
