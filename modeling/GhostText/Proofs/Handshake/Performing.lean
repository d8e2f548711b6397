import GhostText.Proofs.Handshake.Answering

/-!
# Whatever a civil host does meanwhile

Each action of a host that leaves the messages of a handshake to the handshake abides by it, and so
does whatever its scripts make one another do. The induction is over the depth of the scripts.
-/

namespace GhostText

variable {k : Conduct} {g : Greeting} {run : Runner}

/-- What a host waits with is no business of a handshake. -/
theorem Conduct.plain_reactions {id : Nat} {r : Reactions Action}
    (h : ∀ c ∈ r.callbacks, k.Heeds id c) :
    ∀ q ∈ World.onResult r ++ World.onError r, k.Plain id q := by
  intro q hq
  have hawaits := Conduct.awaitsAll_reactions h q hq
  simp only [World.onResult, World.onError, World.hostContinuation, List.mem_append, List.mem_map]
    at hq
  rcases hq with ⟨c, -, rfl⟩ | ⟨c, -, rfl⟩
  · exact hawaits
  · exact hawaits

/-- The callbacks of an action wait for the call that it makes. -/
theorem Conduct.Fits.plain {next : Nat} {a : Action} (hf : k.Fits next a) {r : Reactions Action}
    {t : Target} (hr : a.registered = (t, r.callbacks)) {id : Nat} (ht : t.Covers next id) :
    ∀ q ∈ World.onResult r ++ World.onError r, k.Plain id q := by
  refine Conduct.plain_reactions fun c hc => hf.callbacks ?_ ?_
  · rw [hr]
    exact hc
  · rw [hr]
    exact ht

/-- A host that gives something up is not patient. -/
theorem Conduct.not_patient {a : Action} (h : k.does a) (ha : a.givesUp = true) : ¬ k.Patient := by
  intro hp
  rw [hp a h] at ha
  cases ha

namespace World

variable {w w' : World}

theorem abides_answerCall {r : Nat × World} (h : Abides k g w r.2) :
    Abides k g w (answerCall r).2 := by
  unfold answerCall
  split <;> exact h

theorem abides_answerCallOf {r : Except Fault Nat × World} (h : Abides k g w r.2) :
    Abides k g w (answerCallOf r).2 := by
  obtain ⟨_ | _, w'⟩ := r
  · exact h
  · exact abides_answerCall h

section Running

variable (hr : run.Abides k g)

include hr

theorem abides_performContext (n : Nat) {a : ContextAction}
    (ha : (Action.context a).isCivil = true) (w : World) :
    Abides k g w (performContext run n a w).2 := by
  obtain hreplies | rfl | ⟨m, rfl⟩ := performContext_cases run n a w
  · exact hreplies.aside.abides
  · have hkept : Aside k g w (w.updateHost fun h => { h with deferred := h.deferred ++ [n] }) :=
      aside_updateHost rfl
    exact hkept.abides
  · exact abides_send hr (by simpa [Action.isCivil] using ha) w

variable (hk : k.Civil g)

include hk

/-- Whoever comes to wait for a call later waits behind a handshake. -/
theorem abides_andThen {id : Nat} {onResult onError : List Continuation}
    (plain : ∀ q ∈ onResult ++ onError, k.Plain id q) (w : World) :
    Abides k g w (andThen run id onResult onError w) := by
  cases hc : w.client.call? id with
  | none =>
    rw [andThen, hc]
    exact .refl w
  | some c =>
    rw [andThen_eq_choose hc]
    cases c.verdict? with
    | none => exact abides_await plain
    | some v => exact abides_plains hr hk (fun q hq => plain q (Verdict.mem_choose hq)) v w

theorem abides_performAssistant {a : AssistantAction Action}
    (hf : k.Fits w.client.nextId (.assistant a)) :
    Abides k g w (performAssistant run a w).2 := by
  have hcivil := hk.does _ hf.does
  cases a with
  | checkStatus localOnly r =>
    exact abides_answerCall (abides_request hr hk rfl _ _ (fun _ => by decide)
      (hf.plain rfl rfl))
  | signIn r =>
    exact abides_answerCall (abides_request hr hk rfl _ _ (by simp) (hf.plain rfl rfl))
  | confirmSignIn code r =>
    exact abides_answerCall (abides_request hr hk rfl _ _ (fun _ => by decide)
      (hf.plain rfl rfl))
  | signOut r =>
    exact abides_answerCall (abides_request hr hk rfl _ _ (fun _ => by decide)
      (hf.plain rfl rfl))
  | completions options cycling r =>
    refine abides_answerCallOf ?_
    unfold getCompletions
    split
    · exact .refl w
    · refine abides_request hr hk ?_ _ _ (by simp) (hf.plain rfl rfl)
      cases cycling <;> rfl
  | completionParams options => exact .refl w
  | notifyShown uuid => exact (aside_notify rfl _ w).abides
  | notifyAccepted uuid => exact (aside_notify rfl _ w).abides
  | notifyRejected uuids =>
    unfold performAssistant
    dsimp only
    split
    · exact .refl w
    · exact (aside_notify rfl _ w).abides
  | accountStatus status => exact abides_changeStatus hr _ w
  | requestActivity busy => exact abides_changeStatus hr _ w
  | subscribe event label script =>
    have hname := aside_nameSubscriber (g := g) label (s := script)
      (hf.assistantScript List.mem_cons_self) w
    unfold performAssistant
    dsimp only
    split
    · exact hname.abides
    · exact (hname.trans (aside_updateAssistant ..)).abides
  | unsubscribe event label =>
    have hname := aside_nameSubscriber (k := k) (g := g) label (s := []) (List.forall_mem_nil _) w
    unfold performAssistant
    dsimp only
    split
    · exact hname.abides
    · exact (hname.trans (aside_updateAssistant ..)).abides
  | openDocument uri languageId text =>
    exact ((aside_updateAssistant _ w).trans (aside_didOpen ..)).abides
  | changeDocument uri text changes =>
    have hchange := aside_changeVersion (k := k) (g := g) uri
      (orGiven changes (wholeText text.textOrEmpty)) w
    exact hchange.abides
  | _ => simp [Action.isCivil] at hcivil

theorem abides_performClient {a : ClientAction Action}
    (hf : k.Fits w.client.nextId (.client a)) : Abides k g w (performClient run a w).2 := by
  have hcivil := hk.does _ hf.does
  cases a with
  | request kind method params r t =>
    refine abides_answerCall (abides_request hr hk (by simpa [Action.isCivil] using hcivil) _ _
      ?_ (hf.plain rfl rfl))
    cases t <;> simp [treatmentOf]
  | notify method params =>
    exact (aside_notify (by simpa [Action.isCivil] using hcivil) _ w).abides
  | send m => exact abides_send hr (by simpa [Action.isCivil] using hcivil) w
  | cancelRequest id => exact abides_cancelRequest (Conduct.not_patient hf.does rfl) id w
  | cancelCall id => exact abides_cancelCall (Conduct.not_patient hf.does rfl) id w
  | showCall id => exact abides_answerCall (.refl w)
  | andThen id r => exact abides_answerCall (abides_andThen hr hk (hf.plain rfl rfl) w)
  | receive bytes => exact abides_receive hr hk bytes w
  | handleRequests method spec =>
    exact abides_handleRequests _ (hf.clientScript List.mem_cons_self) w
  | handleNotifications method spec =>
    exact abides_handlers fun h =>
      handles_setNotification h _ (hf.clientScript List.mem_cons_self)
  | removeHandler method => exact abides_handlers fun h => handles_remove h _
  | resolve method => exact .refl w
  | acceptWrites accept =>
    have hidle : Aside k g w { w with transport := { w.transport with accepting := accept } } :=
      ⟨rfl, rfl, fun h => h, fun h => h, rfl, rfl⟩
    exact hidle.abides
  | shutdown r =>
    exact abides_answerCall (abides_request hr hk rfl _ _ (by simp) (hf.plain rfl rfl))
  | traceAt level => exact (aside_notify rfl _ w).abides
  | exit => exact (aside_notify rfl _ w).abides
  | openDocument uri languageId version text => exact (aside_didOpen ..).abides
  | changeDocument uri version changes => exact (aside_didChange ..).abides
  | closeDocument uri => exact (aside_notify rfl _ w).abides
  | changeFolders added removed => exact (aside_didChangeFolders ..).abides
  | close => exact abides_closeClient (Conduct.not_patient hf.does rfl) w
  | stopTransport =>
    have hnoted : Aside k g w (w.record .transportStopped) := aside_note rfl w
    exact hnoted.abides.trans (abides_closeClient (Conduct.not_patient hf.does rfl) _)
  | transportStatus text => exact (addsAsides_statusMessage ..).aside.abides
  | verbosity level =>
    have hidle : Aside k g w
        (w.updateClient fun c => { c with verbosity := Verbosity.ofJson level }) :=
      aside_client rfl rfl rfl
    exact hidle.abides
  | logTraffic enabled =>
    have hidle : Aside k g w (w.updateClient fun c => { c with logsTraffic := enabled.truthy }) :=
      aside_client rfl rfl rfl
    exact hidle.abides
  | capabilities => exact .refl w
  | registrations => exact .refl w
  | _ => simp [Action.isCivil] at hcivil

/-! ## Actions and scripts -/

/-- An action abides by a handshake, by induction over the actions within it. -/
theorem abides_perform (context : Option Nat) (a : Action) {w : World}
    (hf : k.Fits w.client.nextId a) : Abides k g w (perform run context a w).2 :=
  match a with
  | .within n b => abides_perform _ b (hf.within.fits _)
  | .raise f => .refl w
  | .context a =>
    match context with
    | none => .refl w
    | some n => abides_performContext hr n (hk.does _ hf.does) w
  | .client a => abides_performClient hr hk hf
  | .assistant a => abides_performAssistant hr hk hf
  | .task a => by simpa [Action.isCivil] using hk.does _ hf.does
  | .editor a => by simpa [Action.isCivil] using hk.does _ hf.does
  | .session a => by simpa [Action.isCivil] using hk.does _ hf.does
  | .controller a => by simpa [Action.isCivil] using hk.does _ hf.does

theorem abides_performAll (context : Option Nat) {s : Script} (hs : k.AllowsAll s) (w : World) :
    Abides k g w (performAll run context s w).2 :=
  performAll_preserves (.refl w) fun w₁ h a ha =>
    h.trans (abides_perform hr hk context a ((hs a ha).fits w₁.client.nextId))

end Running

section Depth

variable (hk : k.Civil g)

include hk

/-- However deeply scripts make one another run, the handshake is left to itself. -/
theorem abides_runTo (depth : Nat) : (runTo depth).Abides k g := by
  induction depth with
  | zero => exact fun i w _ => .refl w
  | succ depth ih =>
    intro i w hi
    cases i with
    | script context actions => exact abides_performAll ih hk context hi w
    | deliver bytes => exact abides_receive ih hk bytes w

/-- Whatever the host goes on to do. -/
theorem abides_after {actions : List Action} (ha : k.AllowsAll actions) (w : World) :
    Abides k g w (w.after actions) := by
  refine Abides.foldl (fun w a hm => ?_) w
  exact abides_perform (abides_runTo hk depthLimit) hk none a
    ((ha a hm).fits w.client.nextId)

end Depth

end World

end GhostText
