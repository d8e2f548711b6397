import GhostText.Client.Answer
import GhostText.Proofs.Run.Calls

/-!
# Requests of the assistant are rows of steps

The requests of the service, the fetches, and what is asked next in a handshake or in a start from
the command line.
-/

namespace GhostText.World

variable {k : Regime} {run : Runner} (hr : run.Steady k) {w : World}
  {onResult onError : List Continuation}

include hr

/-! ## The vocabulary of the service -/

section Vocabulary

variable (h : k.AwaitsAll w.client.nextId (onResult ++ onError))
  (plain : ∀ q ∈ onResult ++ onError, q.isOfFetch = false)

include h plain

theorem leads_getVersion : Leads k w (getVersion run onResult onError w).2 :=
  leads_request hr _ _ _ (.ofPlain h plain (by decide) nofun)

theorem leads_checkStatus (localOnly : Json) :
    Leads k w (checkStatus run localOnly onResult onError w).2 :=
  leads_request hr _ _ _ (.ofPlain h plain (by decide) fun _ => by decide)

theorem leads_signIn : Leads k w (signIn run onResult onError w).2 :=
  leads_request hr _ _ _ (.ofPlain h plain (by decide) nofun)

theorem leads_confirmSignIn (code : Json) :
    Leads k w (confirmSignIn run code onResult onError w).2 :=
  leads_request hr _ _ _ (.ofPlain h plain (by decide) fun _ => by decide)

theorem leads_signOut : Leads k w (signOut run onResult onError w).2 :=
  leads_request hr _ _ _ (.ofPlain h plain (by decide) fun _ => by decide)

theorem leads_setEditorInfo (editor plugin : Json) :
    Leads k w (setEditorInfo run editor plugin onResult onError w).2 := by
  unfold setEditorInfo
  cases infoOf editor with
  | error f => exact .refl w
  | ok editor =>
    cases infoOf plugin with
    | error f => exact .refl w
    | ok plugin => exact leads_request hr _ _ _ (.ofPlain h plain (by decide) nofun)

end Vocabulary

/-! ## Fetches -/

def askingMethod (cycling : Bool) : String :=
  if cycling then "getCompletionsCycling" else completionsMethod

/-- A request for completions is made where the conduct admits one. -/
theorem leads_getCompletions (o : CompletionOptions) {cycling : Bool}
    (h : k.Admits w.client.nextId (askingMethod cycling) .completions onResult onError) :
    Leads k w (getCompletions run o cycling onResult onError w).2 := by
  unfold getCompletions
  cases completionParams o w with
  | error f => exact .refl w
  | ok params =>
    have hname : (Json.str (askingMethod cycling)).textOrEmpty = askingMethod cycling := by
      cases cycling <;> rfl
    exact leads_request hr _ _ _ (hname ▸ h)

/-- A fetch is put in the table, the activity is told, and then the completions are asked for. -/
theorem leads_startFetch (ha : k.asks) (position : UncheckedPosition) {sink : CompletionSink}
    (hsink : ∀ task id, k.Awaits id (.fetched task sink))
    (allowed : sink = .controller ∨ ∃ position c, k.does (.task (.start position c))) (w : World) :
    Leads k w (startFetch run position sink w).2 := by
  have hstart : Leads k w (w.updateFetches fun t =>
      { t with
        started := w.fetches.started + 1
        underWay := t.underWay ++ [⟨w.fetches.started + 1, false⟩] }) :=
    .single (.fetches (.start ha)) rfl rfl
  have hreport := hstart.trans (leads_reportActivity hr true _)
  unfold startFetch
  dsimp only
  generalize reportActivity run true _ = w₁ at hreport ⊢
  cases relativePath w₁.fetches with
  | error f => exact hreport
  | ok relative =>
    have hadmits : k.Admits w₁.client.nextId completionsMethod .completions
        [.fetched (w.fetches.started + 1) sink] [.fetchFailed (w.fetches.started + 1)] := by
      refine ⟨?_, nofun, fun _ => ha, .inr ⟨_, sink, ha, rfl, rfl, rfl, rfl, allowed⟩⟩
      exact Conduct.awaitsAll_append.2 ⟨fun q hq => List.mem_singleton.1 hq ▸ hsink _ _,
        fun q hq => List.mem_singleton.1 hq ▸ trivial⟩
    have hask (o : CompletionOptions) : Leads k w (getCompletions run o false
        [.fetched (w.fetches.started + 1) sink] [.fetchFailed (w.fetches.started + 1)] w₁).2 :=
      hreport.trans (leads_getCompletions hr o hadmits)
    dsimp only
    generalize hx : getCompletions run _ false _ _ w₁ = r
    have hr := hx ▸ hask _
    obtain ⟨_ | _, w₂⟩ := r
    · exact hr
    · exact hr

/-! ## The handshake -/

omit hr in
/-- The reactions of a handshake may wait for any of its calls. -/
theorem awaitsAll_onReady {h : Handshake} (hg : k.Greets h) (id : Nat) :
    k.AwaitsAll id (reactions h.onReady) := by
  intro q hq
  simp only [reactions, List.mem_map] at hq
  obtain ⟨x, hx, rfl⟩ := hq
  exact hg x (List.mem_append_left _ hx) id

omit hr in
theorem awaitsAll_onError {h : Handshake} (hg : k.Greets h) (id : Nat) :
    k.AwaitsAll id (reactions h.onError) := by
  intro q hq
  simp only [reactions, List.mem_map] at hq
  obtain ⟨x, hx, rfl⟩ := hq
  exact hg x (List.mem_append_right _ hx) id

omit hr in
/-- The reactions of a handshake end no fetch. -/
theorem plain_ofReactions (r : Option Reaction) : ∀ q ∈ reactions r, q.isOfFetch = false := by
  simp [reactions, Continuation.isOfFetch]

theorem leads_serverStarted (result : Json) (w : World) :
    Leads k w (serverStarted run result w) := by
  have hclient : ∀ capabilities, Leads k w (w.updateClient fun c =>
      { c with capabilities := capabilities, isInitialized := true }) := fun capabilities =>
    leads_client rfl rfl rfl (.aside rfl rfl rfl)
  have htell : ∀ result (w : World), Leads k w (if w.hasAssistant then
      tellSubscribers run (.serverStarted result) (w.signal (.assistantStarted result))
      else w.signal (.serverStarted result)) := by
    intro result w
    split
    · exact (leads_signal rfl w).trans (leads_tellSubscribers hr ..)
    · exact leads_signal rfl w
  exact (hclient _).trans (htell _ _)

theorem leads_afterStart {h : Handshake} (hg : k.Greets h) (w : World) :
    Leads k w (afterStart run h w).2 := by
  exact (leads_notify rfl ..).trans (leads_setEditorInfo hr
    (Conduct.awaitsAll_append.2
      ⟨fun q hq => List.mem_singleton.1 hq ▸ hg, awaitsAll_onError hg _⟩)
    (List.forall_mem_append.2 ⟨by simp [Continuation.isOfFetch], plain_ofReactions _⟩) ..)

theorem leads_afterEditorInfo {h : Handshake} (hg : k.Greets h) (w : World) :
    Leads k w (afterEditorInfo run h w) :=
  leads_getVersion hr
    (Conduct.awaitsAll_append.2 ⟨awaitsAll_onReady hg _, awaitsAll_onError hg _⟩)
    (List.forall_mem_append.2 ⟨plain_ofReactions _, plain_ofReactions _⟩)

/-! ## A start from the command line -/

omit hr in
theorem leads_print (line : String) (w : World) : Leads k w (w.print line) :=
  .note rfl

omit hr in
/-- A step of a start may wait for any call. -/
theorem awaitsAll_startup (step : StartupStep) (id : Nat) :
    k.AwaitsAll id ([.reaction (.startup step)] ++ failStartup) := by
  intro q hq
  simp only [failStartup, List.cons_append, List.nil_append, List.mem_cons, List.not_mem_nil,
    or_false] at hq
  rcases hq with rfl | rfl <;> trivial

omit hr in
/-- A step of a start ends no fetch. -/
theorem plain_startup (step : StartupStep) :
    ∀ q ∈ [.reaction (.startup step)] ++ failStartup, q.isOfFetch = false := by
  simp [failStartup, Continuation.isOfFetch]

/-- A start from the command line goes on from answer to answer by rows of steps. -/
theorem leads_continueStartup (answer : Json) (step : StartupStep) (w : World) :
    Leads k w (continueStartup run answer step w) := by
  cases step with
  | ready =>
    have hwait : Leads k w (w.updateStartup fun s => { s with waiting := false }) :=
      .single (.startup _) rfl rfl
    exact hwait.trans ((leads_print ..).trans
      (leads_checkStatus hr (awaitsAll_startup _ _) (plain_startup _) _))
  | account =>
    unfold continueStartup
    dsimp only
    split
    · exact (leads_print ..).trans (leads_signIn hr (awaitsAll_startup _ _) (plain_startup _))
    · exact (leads_print ..).trans (leads_finishStartup ..)
  | signIn =>
    unfold continueStartup
    dsimp only
    split
    · exact (leads_print ..).trans (leads_finishStartup ..)
    · exact (leads_print ..).trans
        (leads_confirmSignIn hr (awaitsAll_startup _ _) (plain_startup _) _)
  | signedIn => exact (leads_print ..).trans (leads_finishStartup ..)
  | failed => exact .refl w

end GhostText.World
