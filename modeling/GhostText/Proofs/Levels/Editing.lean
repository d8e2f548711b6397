import GhostText.Proofs.Levels.Calls
import GhostText.Suggestion.Deliver

/-!
# Suggestions side by side

Each of the operations on the editor, on the suggestions shown in it, and on the document the server
has of it does the same in worlds that are abreast.
-/

namespace GhostText.World

variable {run : Runner} {o o' : Outset} {w w' : World}

namespace Abreast

variable (h : Abreast o o' w w')

include h

theorem notifyShown (uuid : String) : Abreast o o' (w.notifyShown uuid) (w'.notifyShown uuid) :=
  h.notify ..

theorem notifyAccepted (uuid : String) :
    Abreast o o' (w.notifyAccepted uuid) (w'.notifyAccepted uuid) :=
  h.notify ..

theorem notifyRejected (uuids : List String) :
    Abreast o o' (w.notifyRejected uuids) (w'.notifyRejected uuids) :=
  h.notify ..

/-! ## The end of a session -/

theorem stopListening (n : Nat) : Abreast o o' (w.stopListening n) (w'.stopListening n) :=
  h.updateEditor _

theorem removeSuggestion (n : Nat) (s : Session) :
    Agree o o' (w.removeSuggestion n s) (w'.removeSuggestion n s) := by
  unfold World.removeSuggestion
  cases s.artifact with
  | none => exact h.agree _
  | some a =>
    dsimp only
    rw [h.canvas]
    cases a.find? w.canvas with
    | none => exact h.agree _
    | some _ => exact (((h.updateSession ..).updateCanvas _).updateBuffer _).agree _

theorem releaseSession (n : Nat) : Abreast o o' (w.releaseSession n) (w'.releaseSession n) :=
  h.updateController _

theorem announceEnd (n : Nat) : Abreast o o' (w.announceEnd n) (w'.announceEnd n) := by
  unfold World.announceEnd
  rw [h.session?]
  cases w.session? n with
  | none => exact h
  | some s =>
    dsimp only
    split
    · exact (h.releaseSession n).signal _
    · exact h.signal _

theorem finishRejected (n : Nat) (uuid reason : String) :
    Abreast o o' (w.finishRejected n uuid reason) (w'.finishRejected n uuid reason) :=
  (((h.updateSession ..).notifyRejected _).log (.rejected ..)).announceEnd n

theorem finishAccepted (n : Nat) (uuid : String) :
    Abreast o o' (w.finishAccepted n uuid) (w'.finishAccepted n uuid) :=
  (((h.updateSession ..).notifyAccepted _).log (.accepted uuid)).announceEnd n

theorem beginClosing (n : Nat) : Abreast o o' (w.beginClosing n) (w'.beginClosing n) :=
  (h.updateSession ..).stopListening n

theorem rejectSession (n : Nat) (reason : String) :
    Agree o o' (w.rejectSession n reason) (w'.rejectSession n reason) := by
  unfold World.rejectSession
  rw [h.session?]
  cases w.session? n with
  | none => exact h.agree _
  | some s =>
    dsimp only
    split
    · exact h.agree _
    · exact (((h.beginClosing n).removeSuggestion n s).abreast.finishRejected ..).agree _

theorem rejectCurrent (reason : String) :
    Agree o o' (w.rejectCurrent reason) (w'.rejectCurrent reason) := by
  unfold World.rejectCurrent
  rw [h.controller]
  cases w.controller.bind Controller.session with
  | none => exact h.agree _
  | some n => exact h.rejectSession n reason

theorem noteChange : Abreast o o' w.noteChange w'.noteChange := by
  unfold World.noteChange
  rw [h.controller, h.buffer]
  cases w.controller with
  | none => exact h
  | some c =>
    dsimp only
    split
    · exact h
    · refine ((h.updateController fun c => { c with latest := w.buffer.text }).rejectCurrent
        "edit").onward fun _ u u' hu => ?_
      rw [hu.buffer]
      exact hu.updateController _

/-! ## Changes in the editor -/

/-- Sessions hear of the editor in the same order on both sides. -/
theorem tellSessions {listen : Nat → World → World}
    (hl : ∀ n u u', Abreast o o' u u' → Abreast o o' (listen n u) (listen n u')) :
    Abreast o o' (w.tellSessions listen) (w'.tellSessions listen) := by
  unfold World.tellSessions
  rw [h.editor]
  refine h.foldl (fun n u u' hu => ?_) _
  rw [hu.editor]
  split
  · exact hl n u u' hu
  · exact hu

/-- What is given up on the way of a session that hears something. -/
theorem cancelFetchesIf (hr : run.Agrees o o') (n : Nat) (goes : Bool) :
    Abreast o o'
      (if goes && (w.session? n).any Session.cancelsFetches then World.cancelFetches run w else w)
      (if goes && (w'.session? n).any Session.cancelsFetches then World.cancelFetches run w'
        else w') := by
  rw [h.session?]
  split
  · exact h.cancelFetches hr
  · exact h

theorem hearChange (hr : run.Agrees o o') (origin : String) (n : Nat) :
    Abreast o o' (World.hearChange run origin n w) (World.hearChange run origin n w') :=
  ((h.cancelFetchesIf hr n _).rejectSession n "edit").abreast

theorem aboutToChange (hr : run.Agrees o o') (origin : String) :
    Abreast o o' (World.aboutToChange run origin w) (World.aboutToChange run origin w') := by
  unfold World.aboutToChange
  rw [h.editor]
  split
  · exact h
  · exact (h.signal _).tellSessions fun n u u' hu => hu.hearChange hr origin n

theorem contentChanged : Abreast o o' w.contentChanged w'.contentChanged := by
  unfold World.contentChanged
  rw [h.editor]
  split
  · exact h
  · dsimp only
    rw [(h.signal _).controller]
    split
    · exact (h.signal _).noteChange
    · exact h.signal _

theorem hearMove (hr : run.Agrees o o') (n : Nat) :
    Abreast o o' (World.hearMove run n w) (World.hearMove run n w') :=
  ((h.cancelFetchesIf hr n true).rejectSession n "cursor-move").abreast

theorem cursorMoved (hr : run.Agrees o o') :
    Abreast o o' (World.cursorMoved run w) (World.cursorMoved run w') := by
  unfold World.cursorMoved
  rw [h.editor]
  split
  · exact h
  · exact (h.signal _).tellSessions fun n u u' hu => hu.hearMove hr n

theorem hearToggle (entering : Bool) (n : Nat) :
    Abreast o o' (World.hearToggle entering n w) (World.hearToggle entering n w') :=
  ((h.log (.toggled entering)).rejectSession n "mode-toggle").abreast

theorem toggleMode (entering : Bool) :
    Abreast o o' (w.toggleMode entering) (w'.toggleMode entering) := by
  unfold World.toggleMode
  rw [h.editor]
  split
  · exact h
  · exact h.tellSessions fun n u u' hu => hu.hearToggle entering n

theorem insertText (hr : run.Agrees o o') (text : Text) (origin : String) :
    Abreast o o' (World.insertText run text origin w) (World.insertText run text origin w') :=
  ((h.aboutToChange hr origin).updateBuffer _).contentChanged

theorem replaceRange (hr : run.Agrees o o') (range : UncheckedRange) (text : Text)
    (origin : String) :
    Agree o o' (World.replaceRange run range text origin w)
      (World.replaceRange run range text origin w') := by
  unfold World.replaceRange
  refine (h.aboutToChange hr origin).onward fun u u' hu => ?_
  dsimp only
  rw [hu.buffer]
  cases u.buffer.offsets range with
  | error f => exact hu.agree _
  | ok offsets => exact (hu.updateBuffer _).contentChanged.agree _

theorem moveCaret (hr : run.Agrees o o') (p : UncheckedPosition) :
    Agree o o' (World.moveCaret run p w) (World.moveCaret run p w') := by
  unfold World.moveCaret
  rw [h.buffer]
  cases w.buffer.moveTo p with
  | error f => exact h.agree _
  | ok b => exact ((h.updateBuffer _).cursorMoved hr).agree _

theorem undo (hr : run.Agrees o o') : Agree o o' (World.undo run w) (World.undo run w') := by
  unfold World.undo
  rw [h.buffer]
  split
  · exact h.agree _
  · refine (h.aboutToChange hr "undo").onward fun u u' hu => ?_
    dsimp only
    rw [hu.buffer]
    cases u.buffer.undo? with
    | none => exact hu.agree _
    | some b => exact (hu.updateBuffer _).contentChanged.agree _

/-! ## Starting and accepting a session -/

theorem startSession (n : Nat) (s : Session) :
    Abreast o o' (w.startSession n s) (w'.startSession n s) := by
  unfold World.startSession
  rw [h.canvas, h.buffer]
  exact (((h.updateCanvas _).updateSession ..).notifyShown _).updateEditor _

theorem startOnce (n : Nat) : Agree o o' (World.startOnce n w) (World.startOnce n w') := by
  unfold World.startOnce
  rw [h.session?]
  cases w.session? n with
  | none => exact h.agree _
  | some s =>
    dsimp only
    split
    · exact h.agree _
    · exact (h.startSession n s).agree _

theorem applyCompletion (hr : run.Agrees o o') (c : Completion) :
    Agree o o' (World.applyCompletion run c w) (World.applyCompletion run c w') := by
  unfold World.applyCompletion
  rw [h.buffer]
  cases missingText? c w.buffer with
  | some rest => exact (h.insertText hr rest "api").agree _
  | none =>
    dsimp only
    refine (h.replaceRange hr c.range.unchecked c.text.toList "api").onward fun a u u' hu => ?_
    cases a with
    | error f => exact hu.agree _
    | ok _ => exact hu.moveCaret hr _

theorem acceptSession (hr : run.Agrees o o') (n : Nat) :
    Agree o o' (World.acceptSession run n w) (World.acceptSession run n w') := by
  unfold World.acceptSession
  rw [h.session?]
  cases w.session? n with
  | none => exact h.agree _
  | some s =>
    dsimp only
    split
    · exact h.agree _
    · refine ((h.beginClosing n).removeSuggestion n s).onward fun found u u' hu => ?_
      cases found with
      | false => exact ((hu.log (.lost s.uuid)).finishRejected ..).agree _
      | true =>
        dsimp only
        refine (hu.applyCompletion hr s.completion).onward fun a v v' hv => ?_
        cases a with
        | error f => exact ((hv.log (.unapplied s.uuid f)).finishRejected ..).agree _
        | ok _ => exact (hv.finishAccepted ..).agree _

theorem acceptCurrent (hr : run.Agrees o o') :
    Agree o o' (World.acceptCurrent run w) (World.acceptCurrent run w') := by
  unfold World.acceptCurrent
  rw [h.controller]
  cases w.controller.bind Controller.session with
  | none => exact h.agree _
  | some n => exact h.acceptSession hr n

/-- A key that one session has taken is taken on both sides. -/
theorem hearKey (hr : run.Agrees o o') (key : String) (n : Nat) (handled : Bool) :
    Agree o o' (World.hearKey run key n (handled, w)) (World.hearKey run key n (handled, w')) := by
  unfold World.hearKey
  dsimp only
  rw [h.session?, h.editor]
  cases w.session? n with
  | none => exact h.agree _
  | some s =>
    dsimp only
    split
    · exact h.agree _
    · exact (h.acceptSession hr n).abreast.agree _

theorem keyPressed (hr : run.Agrees o o') (key : String) :
    Agree o o' (World.keyPressed run key w) (World.keyPressed run key w') := by
  unfold World.keyPressed
  rw [h.editor]
  split
  · exact h.agree _
  · refine (h.agree false).foldl (fun n r r' hrr => hrr.onward fun handled u u' hu => ?_) _
    rw [hu.editor]
    split
    · exact hu.hearKey hr key n handled
    · exact hu.agree _

theorem pressKey (hr : run.Agrees o o') (key : String) :
    Agree o o' (World.pressKey run key w) (World.pressKey run key w') := by
  unfold World.pressKey
  refine (h.keyPressed hr key).onward fun handled u u' hu => ?_
  cases handled with
  | true => exact hu.agree _
  | false =>
    dsimp only
    split
    · exact (hu.insertText hr ..).agree _
    · split
      · exact (hu.insertText hr ..).agree _
      · exact hu.agree _

theorem present (completion : Completion) :
    Abreast o o' (w.present completion) (w'.present completion) := by
  unfold World.present
  refine (h.rejectCurrent _).onward fun _ u u' hu => ?_
  dsimp only
  rw [hu.controller, hu.sessions]
  cases u.controller with
  | none => exact hu
  | some c =>
    have hslot := hu.map (f := fun w => { w with
      sessions := u.sessions ++
        [Session.propose completion c.config.inlineInSource c.config.acceptKey true true]
      controller := some c }) (fun _ _ _ => rfl) fun _ => rfl
    exact ((hslot.updateController _).startSession ..).signal _

theorem takeCompletion (completion : Completion) :
    Abreast o o' (w.takeCompletion completion) (w'.takeCompletion completion) := by
  unfold World.takeCompletion
  rw [h.controller]
  cases w.controller with
  | none => exact h
  | some c =>
    dsimp only
    split
    · exact h.notifyRejected _
    · exact h.present completion

/-! ## Keeping the server's document in step -/

theorem markOpened (text : Text) : Abreast o o' (w.markOpened text) (w'.markOpened text) :=
  h.updateController _

theorem dropChange : Abreast o o' w.dropChange w'.dropChange := h.updateController _

theorem openPath (path : Json) : Agree o o' (World.openPath path w) (World.openPath path w') := by
  unfold World.openPath
  rw [h.editor]
  dsimp only
  refine (h.updateFetches fun t => { t with
    activeFile := .str path.shown, languageId := .str w.editor.languageId }).onward
      fun u u' hu => ?_
  rw [hu.buffer]
  cases uriOf path with
  | error f => exact hu.agree _
  | ok uri => exact ((hu.openAtZero ..).markOpened _).agree _

theorem openDocument : Agree o o' (World.openDocument w) (World.openDocument w') := by
  unfold World.openDocument
  rw [h.editor]
  split
  · exact h.agree _
  · exact h.openPath _

theorem closePath (path : Json) :
    Agree o o' (World.closePath path w) (World.closePath path w') := by
  unfold World.closePath
  split
  · exact h.agree _
  · cases uriOf path with
    | error f => exact h.agree _
    | ok uri => exact (h.didClose _).agree _

theorem switchFile (newPath oldPath : Json) :
    Agree o o' (World.switchFile newPath oldPath w) (World.switchFile newPath oldPath w') := by
  unfold World.switchFile
  refine ((h.rejectCurrent _).abreast.closePath oldPath).onward fun a u u' hu => ?_
  cases a with
  | error f => exact hu.agree _
  | ok _ =>
    dsimp only
    split
    · exact hu.dropChange.openPath _
    · exact hu.dropChange.agree _

theorem switchFolder (newFolder oldFolder : Json) :
    Agree o o' (World.switchFolder newFolder oldFolder w)
      (World.switchFolder newFolder oldFolder w') := by
  unfold World.switchFolder
  have hnew := h.updateFetches fun t => { t with workspaceFolder := .str newFolder.textOrEmpty }
  cases folderEntry newFolder <;> cases folderEntry oldFolder
  case ok.ok => exact hnew.didChangeFolders ..
  all_goals exact hnew.agree _

theorem logEdits (edits : Option (List TextChange)) :
    Abreast o o' (w.logEdits edits) (w'.logEdits edits) := by
  cases edits with
  | none => exact h
  | some edits => exact h.log (.edits edits)

theorem requestCompletion (hr : run.Agrees o o') :
    Agree o o' (World.requestCompletion run w) (World.requestCompletion run w') := by
  unfold World.requestCompletion
  refine (h.cancelFetches hr).onward fun u u' hu => ?_
  dsimp only
  rw [hu.buffer]
  exact hu.startFetch hr ..

theorem documentUri : w'.documentUri = w.documentUri := by
  unfold World.documentUri
  rw [h.fetches, h.editor]

theorem editsFor (c : Controller) (change : PendingChange) :
    World.editsFor c change w' = World.editsFor c change w := by
  unfold World.editsFor
  rw [h.client (r := Client.capabilities) fun _ _ => rfl]

theorem tellChange (hr : run.Agrees o o') :
    Agree o o' (World.tellChange run w) (World.tellChange run w') := by
  unfold World.tellChange
  rw [h.controller]
  cases w.controller with
  | none => exact h.agree _
  | some c =>
    dsimp only
    refine (h.updateController fun c => { c with pending := none }).onward fun u u' hu => ?_
    cases c.pending with
    | none => exact hu.agree _
    | some change =>
      dsimp only
      rw [hu.documentUri, hu.editsFor]
      cases u.documentUri <;> cases World.editsFor c change u
      case ok.ok uri edits =>
        dsimp only
        refine ((hu.logEdits edits).changeVersion ..).onward fun a v v' hv => ?_
        cases a with
        | error f => exact hv.agree _
        | ok _ =>
          dsimp only
          refine ((hv.updateController fun c => { c with synced := change.text }).requestCompletion
            hr).onward fun a x x' hx => ?_
          cases a with
          | error f => exact hx.agree _
          | ok _ => exact hx.agree _
      all_goals exact hu.agree _

theorem flush (hr : run.Agrees o o') : Agree o o' (World.flush run w) (World.flush run w') := by
  unfold World.flush
  rw [h.controller]
  split
  · exact (h.updateController _).tellChange hr
  · exact h.agree _

theorem tick (hr : run.Agrees o o') : Abreast o o' (World.tick run w) (World.tick run w') := by
  unfold World.tick
  rw [h.controller]
  split
  · exact ((h.updateController _).tellChange hr).tell
  · exact h

/-! ## Settings -/

theorem configure (hr : run.Agrees o o') (config : Config) :
    Abreast o o' (World.configure run config w) (World.configure run config w') := by
  unfold World.configure
  have hconfig := (h.updateController fun c => { c with config := config }).updateFetches
    fun t => { t with tabSize := .int config.tabSize, insertSpaces := .bool config.insertSpaces }
  dsimp only
  split
  · exact ((hconfig.rejectCurrent _).abreast.cancelFetches hr).dropChange
  · exact hconfig

theorem updateSettings (hr : run.Agrees o o') (settings : Json) :
    Agree o o' (World.updateSettings run settings w) (World.updateSettings run settings w') := by
  unfold World.updateSettings
  cases Config.ofJson settings with
  | error f => exact h.agree _
  | ok config => exact (h.configure hr config).agree _

theorem bindSettings (hr : run.Agrees o o') (initial : Fields) :
    Agree o o' (World.bindSettings run initial w) (World.bindSettings run initial w') := by
  unfold World.bindSettings
  cases storeWith initial with
  | error f => exact h.agree _
  | ok s => exact (h.updateHost _).updateSettings hr _

theorem tellBound (hr : run.Agrees o o') (n : Nat) :
    Agree o o' (World.tellBound run n w) (World.tellBound run n w') := by
  induction n generalizing w w' with
  | zero => exact h.agree _
  | succ n ih =>
    unfold World.tellBound
    rw [h.host]
    cases w.host.binding with
    | none => exact h.agree _
    | some b =>
      dsimp only
      refine (h.updateSettings hr _).onward fun a u u' hu => ?_
      cases a with
      | error f => exact hu.agree _
      | ok _ => exact ih hu

theorem storeValue (hr : run.Agrees o o') (key : String) (value : Json) :
    Agree o o' (World.storeValue run key value w) (World.storeValue run key value w') := by
  unfold World.storeValue
  rw [h.host]
  cases w.host.binding with
  | none => exact h.agree _
  | some b =>
    dsimp only
    cases b.store.put? key value with
    | error f => exact h.agree _
    | ok s =>
      cases s with
      | none => exact h.agree _
      | some s =>
        dsimp only
        have hbound := h.updateHost fun h => { h with binding := some { b with store := s } }
        refine (hbound.tellBound hr _).onward fun a u u' hu => ?_
        cases a with
        | error f => exact hu.agree _
        | ok _ => exact hu.agree _

theorem unbind : Abreast o o' w.unbind w'.unbind := h.updateHost _

theorem shutdownController (hr : run.Agrees o o') :
    Abreast o o' (World.shutdownController run w) (World.shutdownController run w') :=
  ((h.dropChange.rejectCurrent _).abreast.cancelFetches hr).updateController _

/-! ## What a fetch brings -/

theorem deliverCompletion (hr : run.Agrees o o') (completion : Completion)
    (sink : CompletionSink) :
    Agree o o' (World.deliverCompletion run completion sink w)
      (World.deliverCompletion run completion sink w') := by
  cases sink with
  | nobody => exact h.agree _
  | host c => exact h.callHost hr ..
  | controller => exact (h.takeCompletion completion).agree _

theorem fetchAnswered (hr : run.Agrees o o') (id : Nat) (result : CompletionResult)
    (sink : CompletionSink) :
    Agree o o' (World.fetchAnswered run id result sink w)
      (World.fetchAnswered run id result sink w') := by
  unfold World.fetchAnswered
  refine (h.removeFetch id).onward fun cancelled u u' hu => ?_
  have hidle := hu.reportIfIdle hr
  dsimp only
  split
  · split
    · exact hidle.agree _
    · exact (hidle.notifyRejected _).agree _
  · split
    · refine Abreast.deliverCompletion ?_ hr ..
      split
      · exact hidle
      · exact hidle.notifyRejected _
    · exact hidle.agree _

end Abreast

end GhostText.World
