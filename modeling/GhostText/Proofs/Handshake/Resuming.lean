import GhostText.Proofs.Handshake.Meanwhile

/-!
# How a handshake goes on

When the request of a stage has an outcome, the handshake goes on with the next stage or with the
callback that hears of the end. That may make requests and run scripts, and so may what else waits
for the same call. Errors come first: a request that is refused settles with one at once.
-/

namespace GhostText

variable {k : Conduct} {g : Greeting} {run : Runner}

theorem Greeting.Progress.Follows.not_silent {assured : Prop} {p q : Greeting.Progress}
    (h : p.Follows assured q) (hp : assured → ¬ p.Silent) : assured → ¬ q.Silent := by
  intro ha
  cases p with
  | waiting s id => exact h ha
  | halted handed heard => exact (show q = _ from h) ▸ hp ha

/-- Either the handshake waits for a call, or it does not care how that settles. -/
theorem Greeting.Progress.waiting_or_core (p : Greeting.Progress) (id : Nat) :
    (∃ s, p = .waiting s id) ∨ p.settled id = p ∧ ∀ v, p.core g v id = [] := by
  cases p with
  | waiting s i =>
    by_cases h : id = i
    · exact .inl ⟨s, by rw [h]⟩
    · exact .inr ⟨by simp [settled, h], fun v => by simp [core, h]⟩
  | halted handed heard => exact .inr ⟨rfl, fun v => rfl⟩

namespace Greeting.Stage

theorem isGreeting_method (s : Stage) : Handshake.isGreeting s.method := by
  cases s <;> rfl

theorem method_ne_notice (s : Stage) : s.method ≠ Handshake.notice := by
  cases s <;> decide

/-- A stage has come after those before it. -/
theorem handed_prefix (s : Stage) : s.handed <+: Handshake.methods := by
  cases s <;> exact List.isPrefixOf_iff_prefix.1 rfl

theorem textOrEmpty_method (s : Stage) : (Json.str s.method).textOrEmpty = s.method := by
  cases s <;> rfl

end Greeting.Stage

namespace World

variable {w w' w'' : World} {p q : Greeting.Progress} {handed handed' : List String}

/-- An outcome of the handshake is in hand when so much was handed over, and then it is told. -/
def Resumes (k : Conduct) (g : Greeting) (handed : List String) (w w' : World) : Prop :=
  ∃ q, Advances k g (.halted handed []) q w w' ∧ (k.Assures g → ¬ q.Silent)

/-- However the request of a stage settles, the handshake goes on. -/
def Resumable (k : Conduct) (g : Greeting) (run : Runner) (v : Verdict) : Prop :=
  ∀ (s : Greeting.Stage) (w : World), w.Reached k g (.halted s.handed []) →
    (∀ r, v = .ok r → w.Succeeded s.method r) → Resumes k g s.handed w
      ((s.core g v).foldl (fun w q => w.callBack (v.continueWith run q)) w)

namespace Resumes

theorem abides (h : Resumes k g handed w w') (h' : Abides k g w' w'') :
    Resumes k g handed w w'' := by
  obtain ⟨q, hq, hs⟩ := h
  obtain ⟨r, hr, hf⟩ := h' q hq.reached
  exact ⟨r, hq.trans hr, hf.not_silent hs⟩

theorem callBack {x : Act World Unit} (h : Resumes k g handed w (x w).2) :
    Resumes k g handed w (w.callBack x) :=
  h.abides (addsAsides_callBack x w).aside.abides

end Resumes

/-- A stretch that goes on, and one that goes on from there, are one stretch that goes on. -/
theorem Advances.resumes (h : Advances k g (.halted handed []) (.halted handed' []) w w')
    (h' : Resumes k g handed' w' w'') : Resumes k g handed w w'' := by
  obtain ⟨q, hq, hs⟩ := h'
  exact ⟨q, h.trans hq, hs⟩

/-- What abides by it while an outcome is in hand leaves it there. -/
theorem Abides.advances {heard : List (String × CallbackKind × Outcome)}
    (h : Abides k g w w') (hw : w.Reached k g (.halted handed heard)) :
    Advances k g (.halted handed heard) (.halted handed heard) w w' := by
  obtain ⟨q, hq, hf⟩ := h _ hw
  exact (show q = _ from hf) ▸ hq

/-! ## The end of a handshake -/

section Telling

variable (hr : run.Abides k g) (hk : k.Civil g)

include hr hk

/-- The callback that hears of the end of a handshake is called once, and its script abides. -/
theorem resumes_callHost {c : Callback Action} {kind : CallbackKind} {o : Outcome}
    (h : w.Reached k g (.halted handed [])) (hc : c ∈ g.callbacks)
    (hx : g.Rightly w (c.label, kind, o)) :
    Resumes k g handed w (callHost run kind c o w).2 := by
  have hmem : c.label ∈ g.labels := List.mem_map_of_mem hc
  have hheard : (w.record (.calledBack c.label kind o)).heard g = [(c.label, kind, o)] := by
    have hnone : (w.callbacks.filter fun x => g.labels.contains x.1) = [] := h.heard
    simp [World.heard, callbacks, record, Event.callback?, List.filter_append, hmem] at hnone ⊢
    exact hnone
  have hnoted : Advances k g (.halted handed []) (.halted handed [(c.label, kind, o)]) w
      (w.record (.calledBack c.label kind o)) :=
    { reached :=
        { client := h.client.halted
          subscribers := h.subscribers
          order := h.order
          heard := hheard
          once := Nat.le_refl 1
          rightly := fun x hm => List.mem_singleton.1 hm ▸ hx.keeps h.client.ledger (.refl _) }
      greets := ⟨[], .nothing (by simp [written, record, Event.greeting?]) rfl, by
        simp [Greeting.Progress.handed]⟩
      keeps := .refl _ }
  have hran := hr (.script none c.script) (w.record (.calledBack c.label kind o))
    (hk.scripts c hc)
  exact ⟨_, hnoted.trans (hran.advances hnoted.reached), fun _ => by
    simp [Greeting.Progress.Silent]⟩

/-- The callback for the end, if it is given, is told it. -/
theorem resumes_reactions (kind : CallbackKind) (given : Option (Callback Action)) (v : Verdict)
    (h : w.Reached k g (.halted handed []))
    (hgiven : ∀ c ∈ given, c ∈ g.callbacks ∧ g.Rightly w (c.label, kind, v.outcome))
    (assured : g.IsFull → given.isSome = true) : Resumes k g handed w
      ((reactions (given.map (.host kind))).foldl (fun w q => w.callBack (v.continueWith run q))
        w) := by
  cases given with
  | none => exact ⟨_, .refl h, fun ha => absurd (assured ha.2) nofun⟩
  | some c =>
    obtain ⟨hc, hx⟩ := hgiven c rfl
    have htold := resumes_callHost hr hk h hc hx
    refine Resumes.callBack (x := v.continueWith run (.reaction (.host kind c))) ?_
    cases v <;> exact htold

/-- An error ends a handshake. -/
theorem resumable_error (f : Fault) : Resumable k g run (.error f) := by
  intro s w h _
  refine resumes_reactions hr hk .error g.onError (.error f) h
    (fun c hc => ?_) fun hfull => hfull.onError
  obtain hc := Option.mem_def.1 hc
  exact ⟨by simp [Greeting.callbacks, hc], .error hc f⟩

end Telling

/-! ## The outcome of a call -/

section Settling

variable (hr : run.Abides k g) (hk : k.Civil g)

include hr hk

/-- All else that waits for a call abides by a handshake when it is told. -/
theorem abides_plains {id : Nat} {qs : List Continuation} (hq : ∀ q ∈ qs, k.Plain id q)
    (v : Verdict) (w : World) :
    Abides k g w (qs.foldl (fun w q => w.callBack (v.continueWith run q)) w) :=
  Abides.foldl (fun w q hm => abides_plain hr hk (hq q hm) v w) w

/-- Those who wait for a call are told its outcome, and the handshake, if it does, goes on amid
them. -/
theorem abides_outcome {v : Verdict} (hv : Resumable k g run v) {id : Nat} {call : Call}
    (found : w.client.call? id = some call) (pending : call.status = .pending) :
    Abides k g w ((v.waiting call).foldl (fun w q => w.callBack (v.continueWith run q))
      (w.endCall id (Call.settle v))) := by
  intro p hp
  have hid := Client.call?_eq_some_id found
  have hend := hp.settle found pending v
  obtain ⟨before, after, hqs, hplain⟩ := hp.client.around call (Client.mem_of_call? found) v
  obtain ⟨hbefore, hafter⟩ := List.forall_mem_append.1 hplain
  rw [hid] at hqs
  rw [hqs, List.foldl_append, List.foldl_append]
  have htold := abides_plains hr hk hbefore v (w.endCall id (Call.settle v))
  rcases p.waiting_or_core (g := g) id with ⟨s, rfl⟩ | ⟨hsettled, hcore⟩
  · have hhand : (Greeting.Progress.waiting s id).settled id = .halted s.handed [] := by
      simp [Greeting.Progress.settled]
    have hwaiting : (Greeting.Progress.waiting s id).core g v id = s.core g v := by
      simp [Greeting.Progress.core]
    rw [hhand] at hend
    rw [hwaiting]
    have hbefore := htold.advances hend.reached
    have hanswered : ∀ r, v = .ok r → (w.endCall id (Call.settle v)).Succeeded s.method r := by
      rintro r rfl
      obtain ⟨call', hc', hm, -⟩ := hp.client.waits s id rfl
      obtain rfl := Option.some.inj (found.symm.trans hc')
      have hfound : (w.endCall id (Call.settle (.ok r))).client.call? id =
          some (call.fulfil r) := by
        rw [call?_endCall (Verdict.settling (.ok r)), if_pos rfl, found]
        rfl
      exact ⟨call.fulfil r, Client.mem_of_call? hfound, hm, rfl, rfl⟩
    obtain ⟨q, hq, hs⟩ := (hv s _ hbefore.reached fun r he =>
      (hanswered r he).keeps hend.reached.client.ledger hbefore.keeps).abides
        (abides_plains hr hk hafter v _)
    exact ⟨q, (hend.trans hbefore).trans hq, hs⟩
  · rw [hsettled] at hend
    rw [hcore]
    obtain ⟨q, hq, hf⟩ := (htold.trans (abides_plains hr hk hafter v _)) p hend.reached
    exact ⟨q, hend.trans hq, hf⟩

/-- A call that waits no more settles, if it has not settled yet. -/
theorem abides_settleBy {v : Verdict} (hv : Resumable k g run v) (id : Nat) (w : World) :
    Abides k g w (settleBy run id v (w.updateClient fun c => c.dropPending id)) := by
  have hdrop : (w.updateClient fun c => c.dropPending id).client.call? id = w.client.call? id := rfl
  unfold settleBy settleCall
  rw [hdrop]
  cases hc : w.client.call? id with
  | none => exact abides_dropPending (by simp [hc])
  | some call =>
    dsimp only
    split
    · next hs => exact abides_dropPending (by simpa [hc] using fun _ => hs)
    · next hs => exact abides_outcome hr hk hv hc (not_not.1 hs)

/-! ## Requests -/

/-- Once a request was handed to the transport the rest abides by it, also where it was refused. -/
theorem abides_requested (kind : CallKind) (method params : Json)
    (onResult onError : List Continuation) (t : Treatment) (w : World) :
    Abides k g ((w.updateClient fun c => c.addCall
        (.start w.client.nextId method.textOrEmpty kind onResult onError) t).transmit
          (Message.request (.int w.client.nextId) method.textOrEmpty params).toJson).2
      (request run kind method params onResult onError t w).2 := by
  have hsent := abides_transmitted hr
    (Message.request (.int w.client.nextId) method.textOrEmpty params).toJson
    (w.updateClient fun c => c.addCall
      (.start w.client.nextId method.textOrEmpty kind onResult onError) t)
  unfold request
  dsimp only
  generalize send run _ _ = r at hsent ⊢
  obtain ⟨_ | _, w₁⟩ := r
  · exact hsent.trans (abides_settleBy hr hk (resumable_error hr hk _) w.client.nextId w₁)
  · exact hsent

/-- A request that has nothing to do with the handshake. -/
theorem abides_request {method : Json} (hm : Handshake.isGreeting method.textOrEmpty = false)
    (kind : CallKind) (params : Json) {onResult onError : List Continuation} {t : Treatment}
    (account : t = .account → method.textOrEmpty ∈ accountMethods) {w : World}
    (plain : ∀ q ∈ onResult ++ onError, k.Plain w.client.nextId q) :
    Abides k g w (request run kind method params onResult onError t w).2 := by
  let made := w.updateClient fun c => c.addCall
    (.start w.client.nextId method.textOrEmpty kind onResult onError) t
  let payload := (Message.request (.int w.client.nextId) method.textOrEmpty params).toJson
  have hmade : Abides k g w made := by
    intro p h
    refine ⟨p, h.advances (h.client.addPlain kind account (by simp [hm]) plain)
      (Client.keeps_addCall h.client.ledger kind account fun q hq => (plain q hq).isOfFetch)
      ?_ rfl rfl, .refl p⟩
    simp [Client.addCall, Call.start, hm, requested]
  have hsent : Aside k g made (made.transmit payload).2 :=
    aside_transmit (by simp [payload, hm]) made
  exact (hmade.trans hsent.abides).trans
    (abides_requested hr hk kind method params onResult onError t w)

end Settling

/-! ## The next stage -/

/-- A request of the handshake is handed to the transport. -/
theorem Reached.request {method : String} (h : w.Reached k g p) (kind : CallKind)
    {onResult onError : List Continuation} (known : Handshake.isGreeting method)
    (asked : method ≠ Handshake.notice) (may : w.MayGreet method)
    (order : q.handed <+: Handshake.methods) (handed : q.handed = p.handed ++ [method])
    (heard : q.heard = p.heard)
    (carries : (w.client.addCall (.start w.client.nextId method kind onResult onError)
      .asIs).Carries k g q)
    (plain : ∀ q ∈ onResult ++ onError, q.isOfFetch = false) (params : Json) :
    Advances k g p q w ((w.updateClient fun c => c.addCall
      (.start w.client.nextId method kind onResult onError) .asIs).transmit
        (Message.request (.int w.client.nextId) method params).toJson).2 where
  reached := by
    have hkeeps : w.client.Keeps
        (w.client.addCall (.start w.client.nextId method kind onResult onError) .asIs) :=
      Client.keeps_addCall h.client.ledger kind nofun plain
    have hmade : (w.updateClient fun c =>
        c.addCall (.start w.client.nextId method kind onResult onError) .asIs).Reached k g q :=
      ⟨carries, h.subscribers, order, h.heard.trans heard.symm, heard ▸ h.once,
        fun x hx => (h.rightly x (heard ▸ hx)).keeps h.client.ledger hkeeps⟩
    exact hmade.transmit _
  greets := ⟨[method], .request (c := .start w.client.nextId method kind onResult onError) known
    asked may .asIs params, handed⟩
  keeps := by
    rw [client_transmit]
    exact Client.keeps_addCall h.client.ledger kind nofun plain

section Staging

variable (hr : run.Abides k g) (hk : k.Civil g)

include hr hk

/-- The request of the next stage is made. -/
theorem resumes_stage (s : Greeting.Stage) (h : w.Reached k g (.halted handed []))
    (hs : s.handed = handed ++ [s.method]) (may : w.MayGreet s.method) (kind : CallKind)
    (params : Json) : Resumes k g handed w (World.request run kind (.str s.method) params
      (s.onResult g) (reactions g.handshake.onError) .asIs w).2 := by
  have hmade := h.request (q := .waiting s w.client.nextId) kind s.isGreeting_method
    s.method_ne_notice may s.handed_prefix hs rfl (h.client.addStage s kind) s.isOfFetch_onResult
    params
  have hrequested := abides_requested hr hk kind (.str s.method) params (s.onResult g)
    (reactions g.handshake.onError) .asIs w
  rw [s.textOrEmpty_method] at hrequested
  obtain ⟨q, hq, hf⟩ := hrequested _ hmade.reached
  exact ⟨q, hmade.trans hq, hf⟩

/-- The server is told that it has started and who it is talking to. -/
theorem resumes_afterStart (h : w.Reached k g (.halted ["initialize"] [])) {r : Reply}
    (answered : w.Succeeded "initialize" r) :
    Resumes k g ["initialize"] w (afterStart run g.handshake w).2 := by
  have hmay : ∀ {method : String} {w : World}, w.Succeeded "initialize" r →
      Handshake.before? method = some "initialize" → w.MayGreet method := by
    intro method w hw hb m hm
    exact ⟨r, Option.some.inj (hm.symm.trans hb) ▸ hw⟩
  have htold : Advances k g (.halted ["initialize"] []) (.halted ["initialize", "initialized"] []) w
      (w.transmit (Message.notification "initialized" (.obj [])).toJson).2 :=
    { reached :=
        { h.transmit _ with
          client := (h.transmit _).client.halted
          order := ⟨["setEditorInfo", "getVersion"], rfl⟩ }
      greets := ⟨["initialized"], .notice (hmay answered rfl) _, rfl⟩
      keeps := by
        rw [client_transmit]
        exact .refl _ }
  have hinitialized := htold.trans ((aside_afterWrite
    (Message.notification "initialized" (.obj [])).toJson _).advances htold.reached)
  have hanswered := answered.keeps h.client.ledger hinitialized.keeps
  refine hinitialized.resumes ?_
  unfold afterStart setEditorInfo
  dsimp only
  split
  · next f hinfo =>
    refine ⟨_, .refl hinitialized.reached, fun ha => ?_⟩
    obtain ⟨info, hok⟩ := ha.2.editor
    exact absurd (hinfo.symm.trans hok) nofun
  · next f hinfo _ =>
    refine ⟨_, .refl hinitialized.reached, fun ha => ?_⟩
    obtain ⟨info, hok⟩ := ha.2.plugin
    exact absurd (hinfo.symm.trans hok) nofun
  · exact resumes_stage hr hk .informing hinitialized.reached rfl (hmay hanswered rfl) .mutation _

/-- However a stage ends, the handshake goes on. -/
theorem resumable (v : Verdict) : Resumable k g run v := by
  cases v with
  | error f => exact resumable_error hr hk f
  | ok r =>
    intro s w h answered
    have hanswered := answered r rfl
    cases s with
    | starting => exact .callBack (resumes_afterStart hr hk h hanswered)
    | informing =>
      refine .callBack (x := fun w => (.ok (), afterEditorInfo run g.handshake w)) ?_
      exact resumes_stage hr hk .asking h rfl
        (fun m hm => ⟨r, Option.some.inj hm ▸ hanswered⟩) .query _
    | asking =>
      refine resumes_reactions hr hk .ready g.onReady (.ok r) h
        (fun c hc => ?_) fun hfull => hfull.onReady
      obtain hc := Option.mem_def.1 hc
      exact ⟨by simp [Greeting.callbacks, hc], .ready hc hanswered⟩

end Staging

end World

end GhostText
