import GhostText.Proofs.Startup.Standing

/-!
# How a start answers

The answer to its last request takes a start on, whatever the result looks like; all else that the
server says leaves it where it stands, and so does whatever comes once it has ended.
-/

namespace GhostText

open Startup

/-- What a call settles with that is answered so. -/
def Verdict.ofAnswer : Except ResponseError Json → Verdict
  | .ok v => .ok (.value v)
  | .error e => .error (.response e)

/-- What waits for an answer. -/
def Startup.Inquiry.waiting (h : Handshake) (q : Inquiry) :
    Except ResponseError Json → List Continuation
  | .ok _ => q.onResult h
  | .error _ => q.onError

namespace World

variable {w w' : World} {c : Config} {flag : Bool} {r : Frame.Reader} {q : Inquiry} {s : Stage}
  (run : Runner)

/-- The terminal does not hear that the server has started. -/
theorem tellSubscribers_serverStarted (h : w.assistant.subscriptions = [⟨0, .status, .terminal⟩])
    (result : Json) : tellSubscribers run (.serverStarted result) w = w := by
  rw [tellSubscribers, h]
  rfl

theorem bearings_serverStarted (h : w.assistant.subscriptions = [⟨0, .status, .terminal⟩])
    (result : Json) : (serverStarted run result w).bearings = w.bearings := by
  have htold : ∀ (result : Json) (w : World),
      w.assistant.subscriptions = [⟨0, .status, .terminal⟩] →
      (if w.hasAssistant then tellSubscribers run (.serverStarted result)
        (w.signal (.assistantStarted result))
      else w.signal (.serverStarted result)).bearings = w.bearings := by
    intro result w h
    split
    · rw [tellSubscribers_serverStarted (w := w.signal (.assistantStarted result)) run h,
        bearings_signal]
    · rfl
  exact htold _ (w.updateClient _) h

/-! ## An error -/

/-- An error is logged and the start ends. -/
theorem Underway.fail (h : w.Underway flag ⟨q, none⟩) (f : Fault) :
    (w.callBack (continueWithError run f (.reaction (.startup .failed)))).OnCourse c flag r
      ⟨q, some 1⟩ :=
  (h.congr (bearings_log .error ("Copilot request failed: " ++ f.message) w)).finish c r 1

/-- An error ends a start, whichever request it is for. -/
theorem Underway.failAll (h : w.Underway flag ⟨q, none⟩) (f : Fault) :
    (q.onError.foldl (fun w k => w.callBack (continueWithError run f k)) w).OnCourse c flag r
      ⟨q, some 1⟩ := by
  cases q with
  | start =>
    have hnoted : (w.callBack (continueWithError run f .serverNotStarted)).Underway flag
        ⟨.start, none⟩ :=
      h.congr ((bearings_callBack ..).trans (bearings_statusMessage ..))
    exact hnoted.fail run f
  | _ => exact h.fail run f

/-! ## A result -/

/-- Once the server has started it is asked next who is talking to it. -/
theorem Between.afterStart (h : w.Between flag r .start) :
    (w.callBack (World.afterStart run (startupHandshake c))).OnCourse c flag r
      ⟨.editorInfo, none⟩ := by
  have hsent : w.sendInitialized.Between flag r .start := h.congr (bearings_notify ..)
  exact (hsent.ask run .editorInfo rfl .mutation _).congr (bearings_callBack ..)

theorem Between.afterEditorInfo (h : w.Between flag r .editorInfo) :
    (World.afterEditorInfo run (startupHandshake c) w).OnCourse c flag r ⟨.version, none⟩ :=
  h.ask run .version rfl .query noParams

/-- Once the server has said its version the account is asked for. -/
theorem Between.ready (h : w.Between flag r .version) (v : Json) :
    (continueStartup run v .ready w).OnCourse c flag r ⟨.account, none⟩ := by
  obtain ⟨waiting, hstartup⟩ := h.startup
  have hready : (w.updateStartup fun s => { s with waiting := false }).Between flag r .version := by
    refine ⟨⟨h.ledger, h.methods, h.handlers, h.subscriptions, false, ?_⟩,
      ⟨h.accepting, h.arrival, h.reader⟩, h.pending⟩
    simp [updateStartup, hstartup]
  have hprinted := hready.congr (bearings_print ("Copilot server version: " ++ v.shown) _)
  exact hprinted.ask run .account rfl .query _

/-- The status of the account ends a start, or asks for signing in. -/
theorem Between.account (h : w.Between flag r .account) (v : Json) :
    (continueStartup run v .account w).OnCourse c flag r
      (Stage.answer flag ⟨.account, none⟩ (.ok v)) := by
  obtain ⟨waiting, hstartup⟩ := h.startup
  have hflag : w.startup.any Startup.signIn = flag := by simp [hstartup]
  unfold continueStartup
  dsimp only
  rw [Json.same_str]
  generalize Text.trimEnd _ = line
  have hprinted := h.congr (bearings_print line w)
  rw [show (w.print line).startup = w.startup from rfl, hflag]
  unfold Stage.answer Inquiry.next
  dsimp only
  cases flag && !v.tellsStatus "OK" with
  | true => exact hprinted.ask run .signIn rfl .mutation noParams
  | false => exact hprinted.finish c r 0

/-- An account that is signed in already ends a start; else a code is shown and confirmed. -/
theorem Between.signIn (h : w.Between flag r .signIn) (v : Json) :
    (continueStartup run v .signIn w).OnCourse c flag r
      (Stage.answer flag ⟨.signIn, none⟩ (.ok v)) := by
  unfold continueStartup
  dsimp only
  rw [Json.same_str]
  unfold Stage.answer Inquiry.next
  dsimp only
  cases v.tellsStatus "AlreadySignedIn" with
  | true => exact (h.congr (bearings_print _ w)).finish c r 0
  | false => exact (h.congr (bearings_print _ w)).ask run .confirmation rfl .mutation _

/-- The result or the error of its last request takes a start on. -/
theorem Between.answered (h : w.Between flag r q) (a : Except ResponseError Json) :
    ((q.waiting (startupHandshake c) a).foldl
      (fun w k => w.callBack ((Verdict.ofAnswer a).continueWith run k)) w).OnCourse c flag r
      (Stage.answer flag ⟨q, none⟩ a) := by
  cases a with
  | error e =>
    rw [Stage.answer, Inquiry.next_error]
    exact h.toUnderway.failAll run (.response e)
  | ok v =>
    cases q with
    | start =>
      have hstarted : (w.callBack (continueWithReply run (.value v) .serverStarted)).Between
          flag r .start :=
        h.congr ((bearings_callBack ..).trans (bearings_serverStarted run h.subscriptions v))
      exact hstarted.afterStart run
    | editorInfo => exact h.afterEditorInfo run
    | version => exact h.ready run v
    | account => exact h.account run v
    | signIn => exact h.signIn run v
    | confirmation => exact (h.congr (bearings_print _ w)).finish c r 0

/-! ## Responses -/

/-- The last call leaves the table and settles. -/
theorem OnCourse.settle (h : w.OnCourse c flag r ⟨q, none⟩) (v : Verdict) :
    (w.updateClient fun k => (k.dropPending q.number).updateCall q.number
      (Call.settle v)).Between flag r q := by
  have hw := h.waits rfl
  refine ⟨⟨h.ledger.endCall v.settling.id q.number, ?_, h.handlers, h.subscriptions, h.startup⟩,
    ⟨hw.accepting, hw.arrival, hw.reader⟩, ?_⟩
  · exact (Client.methods_updateCall v.settling.method ..).trans h.methods
  · simp [updateClient, Client.updateCall, Client.dropPending, hw.pending]

/-- The answer to the last request takes a start on, as the course has it. -/
theorem OnCourse.settleBy (h : w.OnCourse c flag r ⟨q, none⟩) (a : Except ResponseError Json)
    {w₁ : World} (e : w₁.bearings = (w.updateClient fun k => k.dropPending q.number).bearings) :
    (settleBy run q.number (Verdict.ofAnswer a) w₁).OnCourse c flag r
      (Stage.answer flag ⟨q, none⟩ a) := by
  obtain ⟨call, hcall, hstatus, hresult, herror⟩ := (h.waits rfl).call
  have hwaiting : (Verdict.ofAnswer a).waiting call = q.waiting (startupHandshake c) a := by
    cases a with
    | ok v => exact hresult
    | error e => exact herror
  have hsettled : (w₁.updateClient fun k => k.updateCall q.number
      (Call.settle (Verdict.ofAnswer a))).bearings = (w.updateClient fun k =>
        (k.dropPending q.number).updateCall q.number
          (Call.settle (Verdict.ofAnswer a))).bearings := by
    injection e
    simp_all [bearings, updateClient, Client.updateCall, Client.dropPending]
  have hfound : w₁.client.call? q.number = some call := by
    rw [Client.call?, show w₁.client.calls = w.client.calls from congrArg Bearings.calls e]
    exact hcall
  rw [World.settleBy, settleCall, hfound]
  simp only [hstatus, ne_eq, not_true_eq_false, if_false, hwaiting]
  exact ((h.settle _).congr hsettled).answered run a

/-- The response to the last request settles its call, some records aside. -/
theorem OnCourse.handleResponse (h : w.OnCourse c flag r ⟨q, none⟩) (result : Json)
    (error : Option ResponseError) :
    (handleResponse run (.int q.number) result error w).OnCourse c flag r
      (Stage.answer flag ⟨q, none⟩ (error.elim (.ok result) .error)) := by
  have hpending := (h.waits rfl).pending
  have hfound := h.ledger.pendingFor?_eq (hpending ▸ List.mem_singleton_self _)
  obtain ⟨w₁, he, hw₁⟩ := handleResponse_of_some run hfound result error
  have hbearings : w₁.bearings = (w.updateClient fun k => k.dropPending q.number).bearings := by
    rcases hw₁ with ⟨w₀, ⟨es, rfl, -⟩, rfl⟩ | ⟨-, rfl⟩
    · rfl
    · exact bearings_changeStatus run (w := w.updateClient _) h.unwatched _
  have hverdict : q.treatment.verdict result error =
      Verdict.ofAnswer (error.elim (.ok result) .error) := by
    cases error <;> cases q <;> rfl
  rw [he, hverdict]
  exact h.settleBy run _ hbearings

/-! ## What the server says -/

/-- What answers no call that waits is not noticed. -/
theorem Underway.dispatch_unheard (h : w.Underway flag s) {b : Frame.Body}
    (unheard : ∀ p ∈ w.client.pending, b.responseTo? p.id = none) :
    (dispatch run w b).bearings = w.bearings := by
  cases b with
  | malformed raw e => exact bearings_clientLog ..
  | value v =>
    cases hm : Message.classify v with
    | error violation =>
      rw [dispatch, hm]
      exact bearings_clientLog ..
    | ok m =>
      rw [dispatch_of_classify run hm]
      cases m with
      | request id method params =>
        refine (replies_logIncoming ..).bearings.trans ?_
        exact bearings_handleRequest (w := (w.openContext method id true).2) run h.handlers ..
      | notification method params =>
        refine (replies_logIncoming ..).bearings.trans ?_
        exact bearings_handleNotification (w := (w.openContext method .null false).2) run
          h.handlers h.unwatched ..
      | response id result error =>
        refine (bearings_logTraffic ..).trans ?_
        cases hp : w.client.pendingFor? id with
        | none => exact (handleResponse_of_none run hp result error).bearings
        | some p =>
          have hheard := responseTo?_of_pendingFor? hm hp
          rw [unheard p (mem_of_pendingFor? hp)] at hheard
          cases hheard

/-- Whatever the server says takes a start to the next stage of its course. -/
theorem OnCourse.dispatch (h : w.OnCourse c flag r s) (b : Frame.Body) :
    (dispatch run w b).OnCourse c flag r (s.hear flag b) := by
  obtain ⟨q, code⟩ := s
  cases code with
  | some code =>
    rw [Stage.hear_of_code rfl]
    refine h.congr (h.toUnderway.dispatch_unheard run ?_)
    simp [h.ended rfl]
  | none =>
    rw [Stage.hear, Frame.Body.answerTo?]
    cases heard : b.responseTo? q.number with
    | none =>
      refine h.congr (h.toUnderway.dispatch_unheard run ?_)
      simpa [(h.waits rfl).pending] using heard
    | some t =>
      obtain ⟨result, error⟩ := t
      obtain ⟨v, rfl, hm⟩ := Frame.Body.classify_of_responseTo? heard
      rw [dispatch_of_classify run hm]
      exact (h.handleResponse run result error).congr (bearings_logTraffic ..)

end World

end GhostText
