import GhostText.Proofs.Client.Correlation
import GhostText.Proofs.Handshake.Performing

/-!
# The order of a handshake

A handshake starts with the first of its requests, and from there it goes on by itself. Its messages
are handed over in their order, each when what must come before it has succeeded, and one of its
callbacks at most hears how it has ended. Where nothing is given up one does hear of it, once every
request of it was answered.
-/

namespace GhostText

variable {k : Conduct} {g : Greeting} {run : Runner}

/-- A call that has a verdict for results has been fulfilled with it. -/
theorem Call.settled_of_verdict? {c : Call} {r : Reply} (h : c.verdict? = some (.ok r)) :
    c.status = .fulfilled ∧ c.result = some r := by
  unfold Call.verdict? at h
  split at h
  · next hs hr =>
    obtain rfl : _ = r := by simpa using h
    exact ⟨hs, hr⟩
  · simp at h
  · cases h

namespace World

variable {w w' : World} {ms : List String}

/-! ## What can be seen of the messages -/

/-- A message of a handshake is written once or, if it is refused, not at all. -/
theorem written_transmit (payload : Json) (w : World) : ∃ sent,
    sent.Sublist payload.greeting?.toList ∧ (w.transmit payload).2.written = w.written ++ sent := by
  unfold transmit
  split
  · refine ⟨_, List.Sublist.refl _, ?_⟩
    cases hp : payload.greeting? <;> simp [written, record, Event.greeting?, hp]
  · exact ⟨[], List.nil_sublist _, (List.append_nil _).symm⟩

/-- What is written is part of what is handed over, in order. -/
theorem Greets.written (h : Greets ms w w') :
    ∃ sent, sent.Sublist ms ∧ w'.written = w.written ++ sent := by
  induction h with
  | nothing written _ => exact ⟨[], .slnil, by simp [written]⟩
  | @notice w may params =>
    exact written_transmit (Message.notification Handshake.notice params).toJson w
  | @request w c known _ _ treatment params =>
    have hsent := written_transmit (Message.request (.int c.id) c.method params).toJson
      (w.updateClient fun k => k.addCall c treatment)
    have hgreeting : Handshake.isGreeting c.method = true := known
    rw [Message.greeting?_request, if_pos hgreeting] at hsent
    exact hsent
  | append _ _ ih ih' =>
    obtain ⟨sent, hs, he⟩ := ih
    obtain ⟨sent', hs', he'⟩ := ih'
    exact ⟨sent ++ sent', hs.append hs', by rw [he', he, List.append_assoc]⟩

/-- Every request that is handed over leaves a call. -/
theorem Greets.requested (h : Greets ms w w') :
    w'.requested = w.requested ++ ms.filter (· ≠ Handshake.notice) := by
  induction h with
  | nothing _ requested => simp [requested]
  | notice may params =>
    simp [World.requested]
  | @request w c known asked _ treatment params =>
    have hgreeting : Handshake.isGreeting c.method = true := known
    simp [World.requested, updateClient, Client.addCall, hgreeting, asked]
  | append _ _ ih ih' => rw [ih', ih, List.filter_append, List.append_assoc]

/-! ## The start -/

section Starting

variable (hr : run.Abides k g) (hk : k.Civil g)

include hr hk

/-- A stage is gone on with once its request has an outcome, which may be so already. -/
theorem resumes_andThen (s : Greeting.Stage) (h : w.Reached k g (.halted s.handed [])) {id : Nat}
    {call : Call} (found : w.client.call? id = some call) (method : call.method = s.method) :
    Resumes k g s.handed w
      (andThen run id (s.onResult g) (reactions g.handshake.onError) w) := by
  have hmem := Client.mem_of_call? found
  rw [andThen_eq_choose found]
  cases hv : call.verdict? with
  | none =>
    have hpending : call.status = .pending := by
      by_contra hs
      obtain ⟨v, hsome⟩ := h.client.settled call hmem hs
      exact absurd (hv.symm.trans hsome) nofun
    refine ⟨.waiting s id, h.advances (h.client.awaitStage s found method hpending)
      (Client.keeps_await h.client.ledger id s.isOfFetch_onResult) ?_ rfl rfl, fun _ hs => hs⟩
    exact congrArg _ (Client.methods_updateCall (f := Call.await _ _) (fun _ => rfl) id _)
  | some v =>
    refine resumable hr hk v s w h fun r he => ?_
    obtain ⟨hs, hres⟩ := Call.settled_of_verdict? (he ▸ hv)
    exact ⟨call, hmem, method, hs, hres⟩

/-- The server is asked to start, and the handshake goes on with what it says. -/
theorem resumes_startServer (h : w.Reached k g (.halted [] [])) (params : Json) :
    Resumes k g [] w (startServer run params [.afterStart g.handshake]
      (reactions g.handshake.onError) w).2 := by
  have hadded : (w.client.addCall (.start w.client.nextId "initialize" .mutation [] [])
      .asIs).Carries k g (.halted [] []) :=
    h.client.addPlain .mutation (by simp) (fun _ => rfl) (by simp)
  have hmay : w.MayGreet "initialize" := fun m hm => absurd hm nofun
  have hmade := h.request (q := .halted ["initialize"] []) .mutation rfl (by decide) hmay
    ⟨["initialized", "setEditorInfo", "getVersion"], rfl⟩ rfl rfl hadded.halted (by simp) params
  have hrequested := (abides_requested hr hk .mutation (.str "initialize") params [] [] .asIs
    w).advances hmade.reached
  have hplain : ∀ q ∈ [Continuation.serverStarted] ++ [.serverNotStarted],
      k.Plain w.client.nextId q := by
    simp [Conduct.Plain]
  have hstarted := (abides_andThen hr hk hplain _).advances hrequested.reached
  have hfound : ((w.updateClient fun c => c.addCall (.start w.client.nextId "initialize" .mutation
      [] []) .asIs).transmit (Message.request (.int w.client.nextId) "initialize" params).toJson
        ).2.client.call? w.client.nextId =
      some (.start w.client.nextId "initialize" .mutation [] []) := by
    rw [client_transmit]
    exact h.client.ledger.call?_addCall_self rfl .asIs
  obtain ⟨call, hc, he⟩ := (hrequested.trans hstarted).keeps.evolves hfound
  have hid : (request run .mutation (.str "initialize") params [] [] .asIs w).1 = w.client.nextId :=
    fst_request ..
  unfold startServer
  generalize request run .mutation (.str "initialize") params [] [] .asIs w = r at *
  obtain ⟨_, w₁⟩ := r
  obtain rfl := hid
  exact (hmade.trans (hrequested.trans hstarted)).resumes
    (resumes_andThen hr hk .starting hstarted.reached hc he.method)

end Starting

/-- The host starts the handshake. Where the number of its process cannot be read nothing
happens. -/
theorem advances_action (hk : k.Civil g) (h : w.Reached k g (.halted [] []))
    (folder trace processId : Json) :
    ∃ q, Advances k g (.halted [] []) q w (act (g.action folder trace processId) w).2 ∧
      (k.Assures g → (orGiven processId (.int w.processId)).toInteger.isOk → ¬ q.Silent) := by
  change ∃ q, Advances k g _ q w (answerCallOf (handshake (runTo depthLimit) folder trace processId
    g.handshake w)).2 ∧ _
  unfold handshake
  cases hn : (orGiven processId (.int w.processId)).toInteger with
  | error f => exact ⟨_, .refl h, fun _ hok => absurd hok nofun⟩
  | ok n =>
    dsimp only
    rw [answerCallOf, snd_answerCall]
    obtain ⟨q, hq, hs⟩ := resumes_startServer (abides_runTo hk depthLimit) hk h
      (startParams n (trace.textOr "off") (Text.trim folder.textOrEmpty))
    exact ⟨q, hq, fun ha _ => hs ha⟩

/-- At the beginning of a run no handshake has started. -/
theorem Fresh.reached {t : Transport} (h : w.Fresh k t) : w.Reached k g (.halted [] []) where
  client :=
    { handlers := h.handlers
      ledger := h.sound.ledger
      asIs := by simp [h.pending]
      settled := by simp [h.calls]
      tabled := by simp [h.calls]
      around := by simp [h.calls]
      waits := nofun }
  subscribers := by simp [h.host, Host.start]
  order := List.nil_prefix
  heard := by
    have hnone : w.callbacks = [] := List.filterMap_eq_nil_iff.2 fun e he =>
      Event.callback?_of_isAside (h.asides e he)
    simp [World.heard, hnone, Greeting.Progress.heard]
  once := Nat.zero_le 1
  rightly := by simp [Greeting.Progress.heard]

/-! ## Whole runs -/

/-- A handshake that does not end in silence has been heard of once it waits for nothing. -/
theorem Reached.length_heard {p : Greeting.Progress} (h : w.Reached k g p) (hp : k.Patient)
    (hs : ¬ p.Silent) (answered : ∀ q ∈ w.client.pending, ¬ Handshake.isGreeting q.method) :
    (w.heard g).length = 1 := by
  cases p with
  | waiting s id =>
    obtain ⟨call, hc, hm, hpending⟩ := h.client.waits s id rfl
    have hgreeting : call.isGreeting := by
      rw [Call.isGreeting, hm]
      exact s.isGreeting_method
    exact absurd hgreeting
      (answered _ (h.client.tabled hp call (Client.mem_of_call? hc) hgreeting hpending))
  | halted handed heard =>
    have hne : heard ≠ [] := hs
    have hpos := List.length_pos_iff.2 hne
    have honce : heard.length ≤ 1 := h.once
    rw [h.heard]
    exact Nat.le_antisymm honce hpos

end World

end GhostText
