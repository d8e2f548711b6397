import GhostText.Proofs.Client.Correlation
import GhostText.Proofs.Startup.Bearings
import GhostText.Proofs.Startup.Course

/-!
# Where a start stands

The world of a start from the command line keeps to its course. While the start waits for an answer
there is exactly one call in the table, that of its last request, and what waits for that call is
the next step; once it has ended the table is empty. Making a request and ending take the world from
one such place to the next.
-/

namespace GhostText

namespace Startup.Inquiry

def onResult (h : Handshake) : Inquiry → List Continuation
  | start => [.serverStarted, .afterStart h]
  | editorInfo => [.afterEditorInfo h]
  | version => [.reaction (.startup .ready)]
  | account => [.reaction (.startup .account)]
  | signIn => [.reaction (.startup .signIn)]
  | confirmation => [.reaction (.startup .signedIn)]

def onError : Inquiry → List Continuation
  | start => .serverNotStarted :: World.failStartup
  | _ => World.failStartup

def treatment : Inquiry → Treatment
  | account | confirmation => .account
  | _ => .asIs

def upTo (q : Inquiry) : List Inquiry := all.take q.number

@[simp] theorem length_upTo (q : Inquiry) : q.upTo.length = q.number := by
  cases q <;> rfl

/-- The requests up to one are those before it and itself. -/
theorem upTo_of_number {q r : Inquiry} (h : r.number = q.number + 1) :
    r.upTo = q.upTo ++ [r] := by
  cases q <;> cases r <;> first | rfl | cases h

theorem mem_accountMethods {q : Inquiry} (h : q.treatment = .account) :
    q.method ∈ accountMethods := by
  cases q with
  | account | confirmation => simp [accountMethods, method]
  | _ => cases h

end Startup.Inquiry

open Startup

namespace World

variable {w w' : World} {c : Config} {flag : Bool} {r : Frame.Reader} {q : Inquiry} {s : Stage}

/-- The requests that were made, and the state of the start itself. -/
structure Underway (flag : Bool) (s : Stage) (w : World) : Prop where
  ledger : w.client.Ledger
  methods : w.client.calls.map Call.method = s.asked.upTo.map Inquiry.method
  handlers : w.Unscripted
  subscriptions : w.assistant.subscriptions = [⟨0, .status, .terminal⟩]
  startup : ∃ waiting, w.startup = some ⟨flag, waiting, s.code⟩

/-- Messages are accepted, ready answers come later, and the reader is as it should be. -/
structure Connected (r : Frame.Reader) (w : World) : Prop where
  accepting : w.transport.accepting = true
  arrival : w.transport.arrival = .later
  reader : w.client.reader = r

structure Waits (c : Config) (r : Frame.Reader) (q : Inquiry) (w : World) : Prop extends
    Connected r w where
  pending : w.client.pending = [⟨q.number, q.method, q.treatment⟩]
  call : ∃ call, w.client.call? q.number = some call ∧ call.status = .pending ∧
    call.onResult = q.onResult (startupHandshake c) ∧ call.onError = q.onError

structure OnCourse (c : Config) (flag : Bool) (r : Frame.Reader) (s : Stage) (w : World) : Prop
    extends Underway flag s w where
  waits : s.code = none → w.Waits c r s.asked
  ended : s.code.isSome → w.client.pending = []

structure Between (flag : Bool) (r : Frame.Reader) (q : Inquiry) (w : World) : Prop extends
    Underway flag ⟨q, none⟩ w, Connected r w where
  pending : w.client.pending = []

/-! ## What a start does not notice -/

theorem Underway.congr (h : w.Underway flag s) (e : w'.bearings = w.bearings) :
    w'.Underway flag s := by
  injection e with calls pending handlers _ _ _ subscriptions startup
  exact ⟨h.ledger.congr calls pending, by rw [calls, h.methods], handlers.trans h.handlers,
    subscriptions.trans h.subscriptions, by rw [startup]; exact h.startup⟩

theorem Connected.congr (h : w.Connected r) (e : w'.bearings = w.bearings) : w'.Connected r := by
  injection e with _ _ _ reader accepting arrival
  exact ⟨accepting.trans h.accepting, arrival.trans h.arrival, reader.trans h.reader⟩

theorem Waits.congr (h : w.Waits c r q) (e : w'.bearings = w.bearings) : w'.Waits c r q := by
  refine ⟨h.toConnected.congr e, ?_, ?_⟩
  · exact (congrArg Bearings.pending e).trans h.pending
  · rw [Client.call?, show w'.client.calls = w.client.calls from congrArg Bearings.calls e]
    exact h.call

/-- A start is on course as long as its bearings are the same. -/
theorem OnCourse.congr (h : w.OnCourse c flag r s) (e : w'.bearings = w.bearings) :
    w'.OnCourse c flag r s :=
  ⟨h.toUnderway.congr e, fun hs => (h.waits hs).congr e,
    fun hs => (congrArg Bearings.pending e).trans (h.ended hs)⟩

theorem Between.congr (h : w.Between flag r q) (e : w'.bearings = w.bearings) :
    w'.Between flag r q :=
  ⟨h.toUnderway.congr e, h.toConnected.congr e, (congrArg Bearings.pending e).trans h.pending⟩

/-- Nobody but the terminal watches a start. -/
theorem Underway.unwatched (h : w.Underway flag s) : w.Unwatched := by
  intro t ht _
  rw [h.subscriptions, List.mem_singleton] at ht
  rw [ht]

theorem Underway.length_calls (h : w.Underway flag s) : w.client.calls.length = s.asked.number := by
  simpa using congrArg List.length h.methods

/-! ## Requests -/

/-- Where answers come later a message that is sent changes no bearings. -/
theorem send_of_later (run : Runner) (accepting : w.transport.accepting = true)
    (later : w.transport.arrival = .later) (payload : Json) :
    (send run payload w).1 = true ∧ (send run payload w).2.bearings = w.bearings := by
  unfold send
  cases w.transport.answerTo? payload with
  | none => exact ⟨(fst_post payload w).trans accepting, bearings_post payload w⟩
  | some answer =>
    have hwrite : (writeAnswered run payload answer w).1 = true ∧
        (writeAnswered run payload answer w).2.bearings = w.bearings := by
      unfold writeAnswered
      rw [transmit, if_pos accepting]
      dsimp only
      split
      · exact ⟨rfl, rfl⟩
      · next hnow => exact absurd (later.symm.trans hnow) (by decide)
    exact ⟨(fst_afterWrite ..).trans hwrite.1, (bearings_afterWrite ..).trans hwrite.2⟩

/-- A request that is accepted and is not answered at once waits. -/
theorem request_of_later (run : Runner) (accepting : w.transport.accepting = true)
    (later : w.transport.arrival = .later) (kind : CallKind) (method params : Json)
    (onResult onError : List Continuation) (treatment : Treatment) :
    (request run kind method params onResult onError treatment w).1 = w.client.nextId ∧
      (request run kind method params onResult onError treatment w).2.bearings =
        (w.updateClient fun k => k.addCall (.start w.client.nextId method.textOrEmpty kind onResult
          onError) treatment).bearings := by
  have hsend := send_of_later (w := w.updateClient fun k => k.addCall
    (.start w.client.nextId method.textOrEmpty kind onResult onError) treatment) run accepting later
    (Message.request (.int w.client.nextId) method.textOrEmpty params).toJson
  unfold request
  dsimp only
  generalize send run _ _ = t at hsend ⊢
  obtain ⟨_ | _, w₁⟩ := t
  · exact absurd hsend.1 (by simp)
  · exact ⟨rfl, hsend.2⟩

/-- The next request of a start is made. -/
theorem Between.ask (h : w.Between flag r q) (run : Runner) (next : Inquiry)
    (number : next.number = q.number + 1) (kind : CallKind) (params : Json) :
    (request run kind (.str next.method) params (next.onResult (startupHandshake c)) next.onError
      next.treatment w).2.OnCourse c flag r ⟨next, none⟩ := by
  have hid : w.client.nextId = next.number := by
    rw [Client.nextId, h.length_calls, number]
  have hasked : (w.updateClient fun k => k.addCall (.start w.client.nextId next.method kind
      (next.onResult (startupHandshake c)) next.onError) next.treatment).OnCourse c flag r
      ⟨next, none⟩ := by
    refine ⟨⟨h.ledger.addCall _ kind _ _ _ Inquiry.mem_accountMethods, ?_, h.handlers,
      h.subscriptions, h.startup⟩, fun _ => ⟨⟨h.accepting, h.arrival, h.reader⟩, ?_, ?_⟩,
      fun ended => absurd ended Bool.false_ne_true⟩
    · simp [updateClient, Client.addCall, h.methods, Inquiry.upTo_of_number number, Call.start]
    · simp [updateClient, Client.addCall, h.pending, hid, Call.start]
    · dsimp only
      rw [← hid]
      exact ⟨_, h.ledger.call?_addCall_self rfl _, rfl, rfl, rfl⟩
  have hrequest := (request_of_later run h.accepting h.arrival kind (.str next.method) params
    (next.onResult (startupHandshake c)) next.onError next.treatment).2
  rw [Json.textOrEmpty_str] at hrequest
  exact hasked.congr hrequest

/-! ## The end -/

theorem bearings_closeClient (w : World) :
    w.closeClient.bearings = (w.updateClient Client.disconnect).bearings := by
  obtain ⟨w₀, ⟨es, rfl, -⟩, he⟩ := closeClient_eq w
  rw [he]
  rfl

/-- A start that has not ended ends. -/
theorem Underway.finish (h : w.Underway flag ⟨q, none⟩) (c : Config) (r : Frame.Reader)
    (code : Nat) : (w.finishStartup code).OnCourse c flag r ⟨q, some code⟩ := by
  obtain ⟨waiting, hstartup⟩ := h.startup
  have hbearings : (w.finishStartup code).bearings = ((w.updateStartup fun s =>
      { s with exitCode := some code }).updateClient Client.disconnect).bearings := by
    unfold finishStartup
    obtain ⟨es, he⟩ := notify_adds "exit" .null
      (w.updateStartup fun s => { s with exitCode := some code })
    rw [bearings_closeClient, he]
    rfl
  have hended : ((w.updateStartup fun s => { s with exitCode := some code }).updateClient
      Client.disconnect).OnCourse c flag r ⟨q, some code⟩ := by
    refine ⟨⟨h.ledger.disconnect, h.methods, h.handlers, h.subscriptions, waiting, ?_⟩, nofun,
      fun _ => rfl⟩
    simp [updateStartup, updateClient, hstartup]
  exact hended.congr hbearings

end World

end GhostText
