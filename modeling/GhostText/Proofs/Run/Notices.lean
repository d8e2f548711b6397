import GhostText.Proofs.Run.Step

/-!
# What is told of documents

The server is told when a document is opened, when it is changed and when it is closed. As long as
the host does not turn to another file, and tells the server nothing of documents by itself, the
active file stays, and all that the server is told of are changes of it.
-/

namespace GhostText

inductive DocumentNotice where
  | opened (uri : String)
  | changed (uri : String)
  | closed (uri : String)
  deriving DecidableEq, Repr

/-- What a notification of a method tells of the document with a URI. -/
def DocumentNotice.ofMethod? (method uri : String) : Option DocumentNotice :=
  match method with
  | "textDocument/didOpen" => some (.opened uri)
  | "textDocument/didChange" => some (.changed uri)
  | "textDocument/didClose" => some (.closed uri)
  | _ => none

def isNoticeMethod (method : String) : Bool :=
  isDocumentMethod method || method = "textDocument/didClose"

def Json.documentNotice? (payload : Json) : Option DocumentNotice :=
  match Message.classify payload with
  | .ok (.notification method params) =>
    DocumentNotice.ofMethod? method ((params.fieldD "textDocument").fieldD "uri").textOrEmpty
  | _ => none

def Event.documentNotice? : Event → Option DocumentNotice
  | .sent payload => payload.documentNotice?
  | _ => none

def Action.turns : Action → Bool
  | .context (.send _) => true
  | .client (.notify method _) => isNoticeMethod method.textOrEmpty
  | .client (.send _) => true
  | .client (.openDocument _ _ _ _) => true
  | .client (.changeDocument _ _ _) => true
  | .client (.closeDocument _) => true
  | .client (.acceptWrites _) => true
  | .assistant (.openDocument _ _ _) => true
  | .assistant (.changeDocument _ _ _) => true
  | .task (.configure s) => s.activeFile.isSome
  | .controller .openDocument => true
  | .controller (.switchFile _ _) => true
  | _ => false

def Conduct.Stays (k : Conduct) : Prop := ∀ a, k.does a → a.turns = false

theorem Action.turns_of_writesDocument {a : Action} (h : a.writesDocument) : a.turns := by
  unfold writesDocument at h
  split at h <;> simp_all [turns, isNoticeMethod]

/-- Other methods give no notice of a document. -/
theorem DocumentNotice.ofMethod?_eq_none {method : String} (h : isNoticeMethod method = false)
    (uri : String) : ofMethod? method uri = none := by
  unfold ofMethod?
  split <;> first | rfl | cases h

/-- What tells of no document tells of no text of one. -/
theorem Json.tellsOfDocument_of_documentNotice? {payload : Json}
    (h : payload.documentNotice? = none) : payload.tellsOfDocument = false := by
  unfold documentNotice? at h
  unfold tellsOfDocument
  split
  · next method params hc =>
    rw [hc] at h
    cases hm : isDocumentMethod method with
    | false => rfl
    | true =>
      simp only [isDocumentMethod, Bool.or_eq_true, decide_eq_true_eq] at hm
      rcases hm with rfl | rfl <;> cases h
  · rfl

namespace World

/-- A notice that was sent tells of a change of the active file. -/
structure ChangesFile (w : World) (notice : DocumentNotice) : Prop where
  accepting : w.transport.accepting = true
  change : ∃ uri, notice = .changed uri ∧
    (w.fetches.activeFile.truthy → uriOf w.fetches.activeFile = .ok uri)

/-- The active file stays, and the server is told of changes of it and of no other document. -/
structure SameFile (w w' : World) : Prop where
  accepting : w'.transport.accepting = w.transport.accepting
  activeFile : w'.fetches.activeFile = w.fetches.activeFile
  events : ∃ es, w'.events = w.events ++ es ∧
    ∀ e ∈ es, ∀ notice ∈ e.documentNotice?, w.ChangesFile notice

namespace SameFile

variable {w w' w'' : World}

theorem trans (h : w.SameFile w') (h' : w'.SameFile w'') : w.SameFile w'' := by
  obtain ⟨es, he, hes⟩ := h.events
  obtain ⟨es', he', hes'⟩ := h'.events
  refine ⟨h'.accepting.trans h.accepting, h'.activeFile.trans h.activeFile, es ++ es', ?_, ?_⟩
  · rw [he', he, List.append_assoc]
  · refine List.forall_mem_append.2 ⟨hes, fun e hm notice hn => ?_⟩
    obtain ⟨haccepting, uri, hchanged, huri⟩ := hes' e hm notice hn
    rw [h.activeFile] at huri
    exact ⟨h.accepting ▸ haccepting, uri, hchanged, huri⟩

/-- Nothing is told of a document. -/
theorem of_events {es : List Event} (ha : w'.transport.accepting = w.transport.accepting)
    (hf : w'.fetches.activeFile = w.fetches.activeFile) (he : w'.events = w.events ++ es)
    (hes : ∀ e ∈ es, e.documentNotice? = none) : w.SameFile w' :=
  ⟨ha, hf, es, he, fun e hm notice hn => by simp [hes e hm] at hn⟩

/-- Nothing is told at all. -/
theorem of_eq (ha : w'.transport.accepting = w.transport.accepting)
    (hf : w'.fetches.activeFile = w.fetches.activeFile) (he : w'.events = w.events) :
    w.SameFile w' :=
  of_events ha hf (he.trans (List.append_nil _).symm) (List.forall_mem_nil _)

theorem refl (w : World) : w.SameFile w := of_eq rfl rfl rfl

end SameFile

end World

end GhostText
