import GhostText.Proofs.Run.Reticence

/-!
# Changes of open documents

A document is open from when the server is told that it is opened until it is told that it is
closed. The host goes from file to file, and each time the document of the one it goes to is opened
and that of the one it comes from is closed, as it says. Changes are told of the file the host has
gone to last. So when it goes from a file to none, they are told of a document that is closed.
-/

namespace GhostText

/-! ## What is open -/

namespace DocumentNotice

def opens (uris : List String) : DocumentNotice → List String
  | .opened uri => uri :: uris
  | .changed _ => uris
  | .closed uri => uris.filter (· != uri)

/-- The documents that changes are told of, each with whether it is open at that time. -/
def changesFrom (uris : List String) : List DocumentNotice → List (String × Bool)
  | [] => []
  | .changed uri :: ns => (uri, uris.contains uri) :: changesFrom uris ns
  | n :: ns => changesFrom (n.opens uris) ns

/-- Notices are read one after another. -/
theorem changesFrom_append (uris : List String) (ns ms : List DocumentNotice) :
    changesFrom uris (ns ++ ms) = changesFrom uris ns ++ changesFrom (ns.foldl opens uris) ms := by
  induction ns generalizing uris with
  | nil => rfl
  | cons n ns ih => cases n <;> simp [changesFrom, opens, ih]

theorem changesFrom_replicate (uris : List String) (m : Nat) (uri : String) :
    changesFrom uris (List.replicate m (.changed uri)) =
      List.replicate m (uri, uris.contains uri) := by
  induction m with
  | zero => rfl
  | succ m ih => simp [List.replicate_succ, changesFrom, ih]

/-- A change opens and closes nothing. -/
theorem foldl_opens_replicate (uris : List String) (m : Nat) (uri : String) :
    (List.replicate m (.changed uri)).foldl opens uris = uris := by
  induction m with
  | zero => rfl
  | succ m ih => simpa [List.replicate_succ, opens] using ih

end DocumentNotice

namespace World

variable {w w' w'' : World} {ns ms : List DocumentNotice}

theorem uriOf_str (path : String) : uriOf (.str path) = .ok (FileUri.ofPath path) := by
  simp [uriOf, pathText, bind, Except.bind, pure, Except.pure]

def notices (w : World) : List DocumentNotice := w.events.filterMap Event.documentNotice?

def openDocuments (w : World) : List String := w.notices.foldl DocumentNotice.opens []

/-- The documents that changes were told of, each with whether it was open at that time. -/
def changesTold (w : World) : List (String × Bool) := DocumentNotice.changesFrom [] w.notices

/-- The server is told of documents, if the transport takes what is written. -/
structure Notifies (w w' : World) (ns : List DocumentNotice) : Prop where
  accepting : w'.transport.accepting = w.transport.accepting
  notices : w'.notices = w.notices ++ if w.transport.accepting then ns else []

theorem Notifies.trans (h : w.Notifies w' ns) (h' : w'.Notifies w'' ms) :
    w.Notifies w'' (ns ++ ms) := by
  refine ⟨h'.accepting.trans h.accepting, ?_⟩
  rw [h'.notices, h.notices, h.accepting, List.append_assoc]
  cases w.transport.accepting <;> simp

/-- Neither the transport nor the events change. -/
theorem Notifies.of_eq (ha : w'.transport.accepting = w.transport.accepting)
    (he : w'.events = w.events) : w.Notifies w' [] :=
  ⟨ha, by simp [World.notices, he]⟩

theorem notices_asides {es : List Event} (ha : ∀ e ∈ es, e.isAside) :
    es.filterMap Event.documentNotice? = [] :=
  List.filterMap_eq_nil_iff.2 fun e hm =>
    Event.documentNotice?_of_isQuiet (Event.isQuiet_of_isAside (ha e hm))

/-- A message is sent, if the transport takes what is written. -/
theorem Adds.notifies {payload : Json} {es : List Event}
    (h : w.Adds w' ((if w.transport.accepting then [.sent payload] else []) ++ es))
    (ha : ∀ e ∈ es, e.isAside) : w.Notifies w' payload.documentNotice?.toList := by
  have hnone := notices_asides ha
  rw [h]
  refine ⟨rfl, ?_⟩
  cases w.transport.accepting with
  | false => simp [World.notices, hnone]
  | true =>
    cases hp : payload.documentNotice? <;> simp [World.notices, hnone, Event.documentNotice?, hp]

/-- Where the active file stays only changes of it are told. -/
theorem SameFile.notifies {path : String} (h : w.SameFile w')
    (hf : w.fetches.activeFile = .str path) (named : path ≠ "") :
    ∃ m, w.Notifies w' (List.replicate m (.changed (FileUri.ofPath path))) := by
  obtain ⟨es, he, hes⟩ := h.events
  have htruthy : (Json.str path).truthy = true := by simpa [Json.truthy] using named
  have hchanged : ∀ n ∈ es.filterMap Event.documentNotice?,
      w.transport.accepting = true ∧ n = .changed (FileUri.ofPath path) := by
    intro n hn
    obtain ⟨e, hm, hnotice⟩ := List.mem_filterMap.1 hn
    obtain ⟨accepting, uri, rfl, huri⟩ := hes e hm n hnotice
    rw [hf, uriOf_str] at huri
    exact ⟨accepting, by rw [Except.ok.inj (huri htruthy)]⟩
  refine ⟨(es.filterMap Event.documentNotice?).length, h.accepting, ?_⟩
  rw [World.notices, he, List.filterMap_append,
    ← List.eq_replicate_of_mem fun n hn => (hchanged n hn).2]
  split
  · rfl
  · next refused =>
    rw [List.eq_nil_iff_forall_not_mem.2 fun n hn => refused (hchanged n hn).1]
    rfl

end World

/-! ## Going from file to file -/

/-- A path, or none. -/
def Json.isPath (v : Json) : Bool := v.isNull || v.isText

theorem Json.textOrEmpty_ne_empty {v : Json} (h : v.isPath = true) (ht : v.truthy = true) :
    v.textOrEmpty ≠ "" := by
  cases v with
  | str s => simpa [truthy] using ht
  | null => cases ht
  | _ => cases h

/-- The file the host has gone to last, and whether it has gone from it to none. -/
structure Whereabouts where
  path : String
  gone : Bool

/-- The host goes to a file, or from one to none, or it says neither. -/
def Whereabouts.switch (newPath oldPath : Json) (p : Whereabouts) : Whereabouts :=
  if newPath.truthy then ⟨newPath.textOrEmpty, false⟩
  else if oldPath.truthy then ⟨p.path, true⟩ else p

/-- Where the host is after an action. -/
def Whereabouts.after (p : Whereabouts) : Action → Whereabouts
  | .controller (.switchFile newPath oldPath) => p.switch newPath oldPath
  | _ => p

/-- The host goes to a file or to none, and comes from none or from the one it has gone to last. -/
def Whereabouts.allows (p : Whereabouts) : Action → Bool
  | .controller (.switchFile newPath oldPath) => newPath.isPath && oldPath.isPath &&
      (!oldPath.truthy || oldPath.textOrEmpty = p.path)
  | _ => false

/-- Within one file the host stays where it is. -/
theorem Whereabouts.after_eq_self {a : Action} (h : a.turns = false) (p : Whereabouts) :
    p.after a = p := by
  unfold after
  split
  · cases h
  · rfl

/-- The host itself may go from file to file. -/
def Conduct.Visits (k : Conduct) : List Action → Whereabouts → World → Prop
  | [], _, _ => True
  | a :: rest, p, w => (p.allows a ∨ k.Fits w.client.nextId a) ∧
      k.Visits rest (p.after a) (World.act a w).2

theorem Conduct.visits_append {k : Conduct} {before actions : List Action} {p : Whereabouts}
    {w : World} : k.Visits (before ++ actions) p w ↔ k.Visits before p w ∧
      k.Visits actions (before.foldl Whereabouts.after p) (w.after before) := by
  induction before generalizing p w with
  | nil => simp [Visits]
  | cons a before ih => simp [Visits, ih, and_assoc]

/-- The host goes from file to file, and else takes only actions of a kind. -/
def Whereabouts.allowsAll (kind : Action → Bool) : List Action → Whereabouts → Bool
  | [], _ => true
  | a :: rest, p => (p.allows a || kind a && a.inner.isEmpty) && allowsAll kind rest (p.after a)

theorem Conduct.visits_ofKind {kind : Action → Bool} {actions : List Action} {p : Whereabouts}
    (h : p.allowsAll kind actions = true) (w : World) :
    (Conduct.ofKind kind).Visits actions p w := by
  induction actions generalizing p w with
  | nil => trivial
  | cons a actions ih =>
    rw [Whereabouts.allowsAll, Bool.and_eq_true, Bool.or_eq_true] at h
    exact ⟨h.1.imp_right fun ha => fits_ofKind ha _, ih h.2 _⟩

namespace World

variable {k : Conduct} {w w' : World} {p : Whereabouts} {ns : List DocumentNotice}

/-- The active file is the one that the host has gone to last, and its document is open unless it
has gone on to none. -/
structure Stands (k : Conduct) (p : Whereabouts) (w : World) : Prop where
  sound : k.free.Sound w
  named : p.path ≠ ""
  file : w.fetches.activeFile = .str p.path
  document : w.transport.accepting = true →
    w.openDocuments.contains (FileUri.ofPath p.path) = !p.gone

/-- To close a file is to give notice of it, if there is one. -/
theorem notifies_closePath {path : Json} (hp : path.isPath = true) (w : World) :
    (closePath path w).1 = .ok () ∧ (closePath path w).2.fetches = w.fetches ∧
    w.Notifies (closePath path w).2
      (if path.truthy then [.closed (FileUri.ofPath path.textOrEmpty)] else []) := by
  cases htruthy : path.truthy with
  | false =>
    have hclose : closePath path w = (.ok (), w) := by simp [closePath, htruthy]
    rw [hclose]
    exact ⟨rfl, rfl, .of_eq rfl rfl⟩
  | true =>
    cases path with
    | str path =>
      obtain ⟨es, ha, he⟩ := post_adds (Message.notification "textDocument/didClose" (.obj
        [("textDocument", .obj [("uri", .str (FileUri.ofPath path))])])).toJson w
      have hclosed := he.notifies ha
      rw [documentNotice?_of_fields] at hclosed
      have hclose : closePath (.str path) w =
          (.ok (), w.didClose (.str (FileUri.ofPath path))) := by
        simp [closePath, htruthy, uriOf_str]
      have hsent : w.didClose (.str (FileUri.ofPath path)) = (w.post (Message.notification
          "textDocument/didClose" (.obj [("textDocument",
            .obj [("uri", .str (FileUri.ofPath path))])])).toJson).2 := by
        simp [didClose, notify]
      rw [hclose, hsent]
      refine ⟨rfl, by rw [he], ?_⟩
      simpa [DocumentNotice.ofMethod?] using hclosed
    | null => cases htruthy
    | _ => cases hp

theorem notifies_openAtZero (uri : String) (languageId text : Json) (w : World) :
    (w.openAtZero (.str uri) languageId text).fetches = w.fetches ∧
    w.Notifies (w.openAtZero (.str uri) languageId text) [.opened uri] := by
  obtain ⟨es, ha, he⟩ := openAtZero_adds (.str uri) languageId text w
  have hopened := he.notifies ha
  rw [documentNotice?_openingOf] at hopened
  exact ⟨by rw [he], hopened.accepting, hopened.notices⟩

/-- To open a file is to give notice of it. -/
theorem notifies_openPath (path : String) (w : World) :
    (openPath (.str path) w).2.fetches.activeFile = .str path ∧
    w.Notifies (openPath (.str path) w).2 [.opened (FileUri.ofPath path)] := by
  have hfile : w.Notifies (w.updateFetches fun t =>
      { t with activeFile := .str path, languageId := .str w.editor.languageId }) [] :=
    .of_eq rfl rfl
  obtain ⟨hfetches, hopened⟩ := notifies_openAtZero (FileUri.ofPath path)
    (.str w.editor.languageId) (.str (String.ofList w.buffer.text)) (w.updateFetches fun t =>
      { t with activeFile := .str path, languageId := .str w.editor.languageId })
  rw [openPath, uriOf_str]
  exact ⟨congrArg Fetches.activeFile hfetches, (hfile.trans hopened).trans (.of_eq rfl rfl)⟩

/-- What the server is told when the host goes from file to file: that the old one is closed, and
that the new one is opened. -/
theorem Stands.notifies_switchFile (h : w.Stands k p) (hk : k.Stays) {newPath oldPath : Json}
    (hnew : newPath.isPath = true) (hold : oldPath.isPath = true) :
    (switchFile newPath oldPath w).2.fetches.activeFile =
      (if newPath.truthy then .str newPath.textOrEmpty else .str p.path) ∧
    ∃ m, w.Notifies (switchFile newPath oldPath w).2
      (List.replicate m (.changed (FileUri.ofPath p.path)) ++
        ((if oldPath.truthy then [.closed (FileUri.ofPath oldPath.textOrEmpty)] else []) ++
          if newPath.truthy then [.opened (FileUri.ofPath newPath.textOrEmpty)] else [])) := by
  have hsame := (leads_rejectCurrent (k := k.free) "superseded" w).file h.sound hk
  obtain ⟨m, hrejected⟩ := hsame.notifies h.file h.named
  have hfile := hsame.activeFile.trans h.file
  obtain ⟨hok, hfetches, hclosed⟩ := notifies_closePath hold (w.rejectCurrent "superseded").2
  unfold switchFile
  generalize closePath oldPath _ = r at hok hfetches hclosed ⊢
  obtain ⟨x, w₁⟩ := r
  obtain rfl : x = .ok () := hok
  have hdropped : w₁.Notifies w₁.dropChange [] := .of_eq rfl rfl
  have hleft := hrejected.trans (hclosed.trans hdropped)
  rw [List.append_nil] at hleft
  dsimp only
  cases htruthy : newPath.truthy with
  | false =>
    simp only [Bool.false_eq_true, if_false, List.append_nil]
    exact ⟨(congrArg Fetches.activeFile hfetches).trans hfile, m, hleft⟩
  | true =>
    cases newPath with
    | str path =>
      obtain ⟨hactive, hopened⟩ := notifies_openPath path w₁.dropChange
      simp only [if_true, Json.textOrEmpty_str, ← List.append_assoc]
      exact ⟨hactive, m, hleft.trans hopened⟩
    | null => cases htruthy
    | _ => cases hnew

/-- Which documents are open follows from the notices. -/
theorem Notifies.openDocuments (h : w.Notifies w' ns) (accepting : w'.transport.accepting = true) :
    w'.openDocuments = ns.foldl DocumentNotice.opens w.openDocuments := by
  rw [h.accepting] at accepting
  rw [World.openDocuments, h.notices, if_pos accepting, List.foldl_append, World.openDocuments]

/-- Where changes of the file are all the changes that are told, they are told as it stands. -/
theorem Stands.told {m : Nat} (h : w.Stands k p)
    (hn : w.Notifies w' (List.replicate m (.changed (FileUri.ofPath p.path)) ++ ns))
    (hns : ∀ uris, DocumentNotice.changesFrom uris ns = []) :
    ∃ m, w'.changesTold =
      w.changesTold ++ List.replicate m (FileUri.ofPath p.path, !p.gone) := by
  cases ha : w.transport.accepting with
  | false =>
    have hnotices : w'.notices = w.notices := by simpa [ha] using hn.notices
    exact ⟨0, by simp [changesTold, hnotices]⟩
  | true =>
    have hdocument := h.document ha
    rw [World.openDocuments] at hdocument
    refine ⟨m, ?_⟩
    rw [changesTold, hn.notices, if_pos ha, DocumentNotice.changesFrom_append,
      DocumentNotice.changesFrom_append, DocumentNotice.changesFrom_replicate, hns,
      List.append_nil, hdocument, changesTold]

/-- Whatever the host does within one file. -/
theorem Stands.stay (h : w.Stands k p) (hk : k.Stays) (hl : Leads k.free w w') :
    w'.Stands k p ∧ ∃ m, w'.changesTold =
      w.changesTold ++ List.replicate m (FileUri.ofPath p.path, !p.gone) := by
  have hsame := hl.file h.sound hk
  obtain ⟨m, hnotifies⟩ := hsame.notifies h.file h.named
  have hsound := (hl.steps h.sound).sound h.sound
  refine ⟨⟨hsound, h.named, hsame.activeFile.trans h.file, fun ha => ?_⟩, ?_⟩
  · rw [hnotifies.openDocuments ha, DocumentNotice.foldl_opens_replicate]
    exact h.document (hnotifies.accepting ▸ ha)
  · rw [← List.append_nil (List.replicate ..)] at hnotifies
    exact h.told hnotifies fun _ => rfl

/-- The host goes from file to file. -/
theorem Stands.switch (h : w.Stands k p) (hk : k.Stays) {newPath oldPath : Json}
    (ha : p.allows (.controller (.switchFile newPath oldPath)) = true) :
    (switchFile newPath oldPath w).2.Stands k (p.switch newPath oldPath) ∧
    ∃ m, (switchFile newPath oldPath w).2.changesTold =
      w.changesTold ++ List.replicate m (FileUri.ofPath p.path, !p.gone) := by
  simp only [Whereabouts.allows, Bool.and_eq_true, Bool.or_eq_true, Bool.not_eq_true',
    decide_eq_true_eq] at ha
  obtain ⟨⟨hnew, hold⟩, hfrom⟩ := ha
  obtain ⟨hfile, m, hnotifies⟩ := h.notifies_switchFile hk hnew hold
  have hsound := ((goes_switchFile (k := k.free) newPath oldPath w).steps h.sound).sound h.sound
  refine ⟨?_, h.told hnotifies fun uris => by cases newPath.truthy <;> cases oldPath.truthy <;> rfl⟩
  have hopen := fun accepting => hnotifies.openDocuments accepting
  simp only [List.foldl_append, DocumentNotice.foldl_opens_replicate] at hopen
  unfold Whereabouts.switch
  cases hn : newPath.truthy with
  | true =>
    rw [hn, if_pos rfl] at hfile
    rw [if_pos rfl]
    refine ⟨hsound, Json.textOrEmpty_ne_empty hnew hn, hfile, fun accepting => ?_⟩
    rw [hopen accepting, hn]
    simp [DocumentNotice.opens]
  | false =>
    rw [hn, if_neg Bool.false_ne_true] at hfile
    rw [if_neg Bool.false_ne_true]
    cases ho : oldPath.truthy with
    | true =>
      have hsame := hfrom.resolve_left (by simp [ho])
      refine ⟨hsound, h.named, hfile, fun accepting => ?_⟩
      rw [hopen accepting, hn, ho, hsame]
      simp [DocumentNotice.opens]
    | false =>
      refine ⟨hsound, h.named, hfile, fun accepting => ?_⟩
      rw [hopen accepting, hn, ho]
      exact h.document (hnotifies.accepting ▸ accepting)

/-- An action of the host leaves the document open that its file says, and only that one is
changed. -/
theorem Stands.act (h : w.Stands k p) (hk : k.Stays) {a : Action}
    (ha : p.allows a ∨ k.Fits w.client.nextId a) : (act a w).2.Stands k (p.after a) ∧
      ∃ m, (World.act a w).2.changesTold =
        w.changesTold ++ List.replicate m (FileUri.ofPath p.path, !p.gone) := by
  rcases ha with hallows | hfits
  · have hswitch : ∃ newPath oldPath, a = .controller (.switchFile newPath oldPath) := by
      unfold Whereabouts.allows at hallows
      split at hallows
      · exact ⟨_, _, rfl⟩
      · cases hallows
    obtain ⟨newPath, oldPath, rfl⟩ := hswitch
    exact h.switch hk hallows
  · rw [Whereabouts.after_eq_self (hk a hfits.does)]
    exact h.stay hk (leads_act (k := k.free) hfits)

/-- Along a run the open document is that of the file the host is in. -/
theorem Stands.after {actions : List Action} (h : w.Stands k p) (hk : k.Stays)
    (visits : k.Visits actions p w) :
    (w.after actions).Stands k (actions.foldl Whereabouts.after p) := by
  induction actions generalizing p w with
  | nil => exact h
  | cons a actions ih => exact ih (h.act hk visits.1).1 visits.2

/-- A run in which the host begins with opening its document. -/
theorem Begins.stands {t : Transport} {setup : ClientSetup} (h : Begins t setup w)
    (hs : k.Equips setup) (named : w.editor.filePath ≠ "") :
    (w.after [.controller .openDocument]).Stands k ⟨w.editor.filePath, false⟩ ∧
      (w.after [.controller .openDocument]).changesTold = [] := by
  have hfresh := h.fresh hs
  have hsound := hfresh.sound
  have hnone : w.notices = [] := notices_asides hfresh.asides
  have hopen : w.after [.controller .openDocument] =
      (openPath (.str w.editor.filePath) w).2 := by
    have hact : w.after [.controller .openDocument] = (openDocument w).2 := rfl
    rw [hact, openDocument, if_neg (by simpa using named)]
  obtain ⟨hfile, hopened⟩ := notifies_openPath w.editor.filePath w
  rw [hopen]
  refine ⟨⟨((goes_openPath (k := k.free) ..).steps hsound).sound hsound, named, hfile,
    fun accepting => ?_⟩, ?_⟩
  · rw [hopened.openDocuments accepting]
    simp [DocumentNotice.opens]
  · rw [changesTold, hopened.notices, hnone]
    cases w.transport.accepting <;> rfl

/-- In every run that begins with the document of a file being opened, where the host goes from file
to file and its scripts stay with the one there is: all that is told with an action are changes of
the file the host has gone to last, and the document of that file is open then, unless the host has
gone on from it to none. -/
theorem changes_told_of_open_documents {t : Transport} {setup : ClientSetup}
    {actions : List Action} {a : Action} (begins : Begins t setup w) (equips : k.Equips setup)
    (stays : k.Stays) (named : w.editor.filePath ≠ "")
    (visits : k.Visits (actions ++ [a]) ⟨w.editor.filePath, false⟩
      (w.after [.controller .openDocument])) :
    let p := actions.foldl Whereabouts.after ⟨w.editor.filePath, false⟩
    let w' := w.after (.controller .openDocument :: actions)
    (w.after [.controller .openDocument]).changesTold = [] ∧
    ∃ m, (World.act a w').2.changesTold =
      w'.changesTold ++ List.replicate m (FileUri.ofPath p.path, !p.gone) := by
  intro p w'
  obtain ⟨hstands, hnone⟩ := begins.stands equips named
  obtain ⟨hbefore, hlast, -⟩ := Conduct.visits_append.1 visits
  exact ⟨hnone, ((hstands.after stays hbefore).act stays hlast).2⟩

/-- The host goes over to another file and types there. -/
theorem changes_told_of_open_documents_other_file :
    let t : Transport := ⟨true, [], .atOnce, false, []⟩
    let actions : List Action := [.editor (.type (.str "x")), .controller .flush,
      .controller (.switchFile (.str "/b.txt") (.str "/a.txt")), .editor (.type (.str "y"))]
    ∃ w₀ w, startEditing 1 t ⟨.null, .null, [], []⟩ ⟨.str "ab", .str "/a.txt", .null, .lf⟩
        none none none none = .ok w₀ ∧ w₀.withController .null = .ok w ∧
      let w' := w.after (.controller .openDocument :: actions)
      ∃ m, 0 < m ∧ (World.act (.controller .flush) w').2.changesTold =
        w'.changesTold ++ List.replicate m ("file:///b.txt", true) := by
  intro t actions
  refine ⟨_, _, rfl, rfl, ?_⟩
  have begins : Begins t ⟨.null, .null, [], []⟩ _ :=
    .controller 1 ⟨.str "ab", .str "/a.txt", .null, .lf⟩ none none none none .null rfl rfl
  have hstays : (Conduct.ofKind fun a => !a.turns).Stays :=
    fun a ha => by simpa [Conduct.ofKind] using ha
  have hvisits : Whereabouts.allowsAll (fun a => !a.turns) (actions ++ [.controller .flush])
      ⟨"/a.txt", false⟩ = true := by decide +kernel
  obtain ⟨-, m, htold⟩ := changes_told_of_open_documents begins (by simp [Conduct.Equips]) hstays
    (by decide +kernel) (Conduct.visits_ofKind hvisits _)
  have huri : FileUri.ofPath "/b.txt" = "file:///b.txt" := by decide +kernel
  refine ⟨m, Nat.pos_of_ne_zero ?_, huri ▸ htold⟩
  rintro rfl
  exact absurd (congrArg List.length htold) (by decide +kernel)

/-- The host goes from its file to none and types on: the change is told of the document that was
closed. -/
theorem change_told_of_closed_document :
    let t : Transport := ⟨true, [], .atOnce, false, []⟩
    let actions : List Action := [.controller .openDocument,
      .controller (.switchFile .null (.str "/a.txt")), .editor (.type (.str "x")),
      .controller .flush]
    ∃ w₀ w, startEditing 1 t ⟨.null, .null, [], []⟩ ⟨.str "ab", .str "/a.txt", .null, .lf⟩
        none none none none = .ok w₀ ∧ w₀.withController .null = .ok w ∧
      (w.after actions).notices = [.opened "file:///a.txt", .closed "file:///a.txt",
        .changed "file:///a.txt"] ∧
      (w.after actions).changesTold = [("file:///a.txt", false)] :=
  ⟨_, _, rfl, rfl, by decide +kernel, by decide +kernel⟩

end World

end GhostText
