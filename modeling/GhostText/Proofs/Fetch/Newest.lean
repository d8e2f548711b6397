import GhostText.Proofs.Fetch.Outdated

/-!
# Only the newest fetch is shown

The host itself may have the controller ask for completions whenever it likes, and have the answers
read in any order, late or never. Then at most one fetch is wanted at every point, sessions begin
only with the answer to what was asked for last, and what comes with any other answer is turned
down. A subscriber who asks while the controller does so undoes that.
-/

namespace GhostText

/-- With these the host has the controller ask for completions, go over to a file and show
completions, has the answers read, and says whether what is written is accepted. -/
def Action.drives : Action → Bool
  | .client (.receive _) => true
  | .client (.acceptWrites _) => true
  | .controller (.switchFile _ _) => true
  | .controller (.present _) => true
  | .controller .flush => true
  | .controller .requestCompletion => true
  | .controller .tick => true
  | _ => false

/-- A host drives the controller itself at any time. -/
def Conduct.Drives (k : Conduct) : List Action → World → Prop
  | [], _ => True
  | a :: rest, w => (a.drives ∨ k.Fits w.client.nextId a) ∧ k.Drives rest (World.act a w).2

theorem Conduct.drives_ofKind {kind : Action → Bool} {actions : List Action}
    (h : ∀ a ∈ actions, a.drives ∨ (kind a && a.inner.isEmpty)) (w : World) :
    (Conduct.ofKind kind).Drives actions w := by
  induction actions generalizing w with
  | nil => trivial
  | cons a actions ih =>
    rw [List.forall_mem_cons] at h
    exact ⟨h.1.imp_right fun ha => fits_ofKind ha _, ih h.2 _⟩

namespace World

variable {k : Conduct} {w w' : World} {m : Nat} {spared : Nat → Prop}

/-! ## What the host drives -/

/-- What the transport is told is not the fetches' concern. -/
theorem Ordered.acceptWrites (h : w.Ordered k m spared) (b : Bool) :
    (World.act (.client (.acceptWrites b)) w).2.Ordered k m spared :=
  ⟨⟨h.sound.congr rfl rfl rfl, h.unready, h.paired, h.ended⟩,
    h.toInOrder.wanes (.of_eq rfl rfl), h.fetchesAsk⟩

/-- The fetches are in order before each of some messages and after all of them. -/
theorem Ordered.dispatches (h : w.Ordered k m spared) (hk : k.Abstains) (bodies : List Frame.Body) :
    (bodies.foldl (World.dispatch (runTo depthLimit)) w).Ordered k m spared ∧
      ∀ r ∈ World.dispatches (runTo depthLimit) bodies w, r.2.Ordered k m spared := by
  induction bodies generalizing w with
  | nil => exact ⟨h, List.forall_mem_nil _⟩
  | cons b bodies ih =>
    obtain ⟨hrest, hreadings⟩ := ih (h.dispatch (fun _ => steady_runTo depthLimit) hk b)
    exact ⟨hrest, List.forall_mem_cons.2 ⟨h, hreadings⟩⟩

theorem Ordered.feed (h : w.Ordered k m spared) (hk : k.Abstains) (bytes : List UInt8) :
    (w.feed bytes).Ordered k m spared :=
  h.leads hk (leads_feed bytes w)

/-- Whatever the host drives the controller to, the fetches stay in order. -/
theorem Ordered.drive (h : w.Ordered k m spared) (hk : k.Abstains) {a : Action} (ha : a.drives) :
    (World.act a w).2.Ordered k m spared := by
  have hr : ∀ r, (runTo depthLimit).Steady r := fun _ => steady_runTo depthLimit
  unfold Action.drives at ha
  split at ha
  · next bytes => exact ((h.feed hk bytes).dispatches hk _).1
  · next b => exact h.acceptWrites b
  · next newPath oldPath => exact h.goes hk (goes_switchFile newPath oldPath w)
  · next completion =>
    rw [act_present]
    cases Completion.ofJson completion with
    | error f => exact h
    | ok c => exact h.present hk c
  · exact h.asksOnce hr hk (asksOnce_flush _ w)
  · exact h.requestCompletion hr hk
  · exact h.asksOnce hr hk (asksOnce_tick _ w)
  · cases ha

/-- An action of the host, its own requests among them, keeps the fetches in order. -/
theorem Ordered.act (h : w.Ordered k m spared) (hk : k.Abstains) {a : Action}
    (ha : a.drives ∨ k.Fits w.client.nextId a) : (World.act a w).2.Ordered k m spared :=
  ha.elim (h.drive hk) fun hfits => h.leads hk (leads_act hfits)

/-- A run keeps the fetches in order. -/
theorem Ordered.after (h : w.Ordered k m spared) (hk : k.Abstains) {actions : List Action}
    (ha : k.Drives actions w) : (w.after actions).Ordered k m spared := by
  induction actions generalizing w with
  | nil => exact h
  | cons a actions ih => exact ih (h.act hk ha.1) ha.2

/-- Wherever an answer is read the fetches are in order. -/
theorem Ordered.readings (h : w.Ordered k m spared) (hk : k.Abstains) (a : Action) :
    ∀ r ∈ w.readings a, r.2.Ordered k m spared := by
  unfold World.readings
  split
  · next bytes => exact ((h.feed hk bytes).dispatches hk _).2
  · exact List.forall_mem_nil _

theorem Begins.ordered {t : Transport} {setup : ClientSetup} (h : Begins t setup w)
    (hs : k.Equips setup) (ht : t.answers = []) : w.Ordered k 0 fun _ => False :=
  { h.standing hs ht, (h.fresh hs).inOrder with
    fetchesAsk := fun id call hc => by simp [Client.call?, (h.fresh hs).calls] at hc }

/-! ## Sessions begin with answers -/

/-- No session of the controller's begins but with an answer that is read, or where the host has a
completion shown. -/
theorem Ordered.started_act (h : w.Ordered k m spared) (hk : k.Abstains) {a : Action}
    (ha : a.drives ∨ k.Fits w.client.nextId a) (he : a.engages = false) :
    (World.act a w).2.started = w.started := by
  have hr : ∀ r, (runTo depthLimit).Steady r := fun _ => steady_runTo depthLimit
  have hsound := h.sound.reticence hk.toReticent h.unready
  have hsteps {w' : World} (hl : Goes (k.reticence hk.toReticent) w w') :
      w'.started = w.started := Steps.started (hl.steps hsound) id
  rcases ha with ha | hfits
  · unfold Action.drives at ha
    split at ha
    · cases he
    · rfl
    · exact hsteps (goes_switchFile ..)
    · cases he
    · exact hsteps (leads_flush (hr _) trivial w).toGoes
    · exact hsteps (leads_requestCompletion (hr _) trivial w).toGoes
    · exact hsteps (leads_tick (hr _) trivial w).toGoes
    · cases ha
  · exact hsteps (leads_act hfits).toGoes

/-! ## Whole runs -/

/-- In every run whose scripts ask for no completions and show none, where no answer comes while a
request is written: at most one fetch is wanted, between any two operations and wherever a message
is read. Sessions begin only with messages, if the host has none begin itself, and only with the
answer to the request for completions that was made last. With the answer to an earlier one none
begins, and the server is told that all of its completions are turned down. -/
theorem newest_fetch_shown {t : Transport} {setup : ClientSetup} {actions : List Action}
    (begins : Begins t setup w) (equips : k.Equips setup) (abstains : k.Abstains)
    (unready : t.answers = []) (drives : k.Drives actions w) {a : Action}
    (next : a.drives ∨ k.Fits (w.after actions).client.nextId a) :
    let w' := w.after actions
    (w'.fetches.underWay.filter fun f => !f.cancelled).length ≤ 1 ∧
    (a.engages = false → (act a w').2.started = w'.started) ∧
    ∀ r ∈ w'.readings a,
      (r.2.fetches.underWay.filter fun f => !f.cancelled).length ≤ 1 ∧
      ((dispatch (runTo depthLimit) r.2 r.1).started ≠ r.2.started →
        ∃ answer, r.2.fetchAnswer? r.1 = some answer ∧ r.2.client.Asked answer.call ∧
          ∀ id, r.2.client.Asked id → id ≤ answer.call) ∧
      ∀ answer id, r.2.fetchAnswer? r.1 = some answer → r.2.client.Asked id → answer.call < id →
        r.2.TurnsDown (dispatch (runTo depthLimit) r.2 r.1) answer.verdict := by
  intro w'
  have hr : ∀ r, (runTo depthLimit).Steady r := fun _ => steady_runTo depthLimit
  have hordered := (begins.ordered equips unready).after abstains drives
  refine ⟨hordered.length_wanted, hordered.started_act abstains next, fun r hmem => ?_⟩
  have hread := hordered.readings abstains a r hmem
  refine ⟨hread.length_wanted, fun hs => ?_, fun answer id ha hasked hlt => ?_⟩
  · obtain ⟨answer, ha, hcurrent⟩ := hread.current_of_started hr abstains hs
    refine ⟨answer, ha, asked_of_fetchAnswer? ha hread.fetchesAsk, fun id hasked => ?_⟩
    by_contra hlt
    exact hcurrent (.inr ⟨id, hasked, Nat.lt_of_not_le hlt⟩)
  · exact hread.turnsDown hr abstains ha (.inr ⟨id, hasked, hlt⟩)

/-- The answers to two requests come in the wrong order. -/
theorem newest_fetch_shown_out_of_order :
    let t : Transport := ⟨true, [], .atOnce, false, []⟩
    let answer (id : Nat) (uuid : String) : Action := .client
      (.receive (Frame.encode (Message.response (.int id) (.obj [("completions",
        .arr [.obj [("uuid", .str uuid), ("text", .str "t")]])]) none).toJson))
    let actions : List Action := [.controller .openDocument, .editor (.type (.str "x")),
      .controller .flush, .controller .requestCompletion, answer 2 "new"]
    ∃ w₀ w, startEditing 1 t ⟨.null, .null, [], []⟩ ⟨.str "ab", .str "/a.txt", .null, .lf⟩
        none none none none = .ok w₀ ∧ w₀.withController .null = .ok w ∧
      (w.after actions).started = ["new"] ∧
      ((w.after actions).readings (answer 1 "old")).length = 1 ∧
      ∀ r ∈ (w.after actions).readings (answer 1 "old"), ∃ a, r.2.fetchAnswer? r.1 = some a ∧
        r.2.TurnsDown (dispatch (runTo depthLimit) r.2 r.1) a.verdict := by
  intro t answer actions
  refine ⟨_, _, rfl, rfl, by decide +kernel, by decide +kernel, fun r hr => ?_⟩
  have begins : Begins t ⟨.null, .null, [], []⟩ _ :=
    .controller 1 ⟨.str "ab", .str "/a.txt", .null, .lf⟩ none none none none .null rfl rfl
  have hactions : ∀ a ∈ actions, a.drives ∨ (a.isAbstaining && a.inner.isEmpty) := by decide
  have hrun := newest_fetch_shown (a := answer 1 "old") begins (by simp [Conduct.Equips])
    (Conduct.abstains_ofKind fun _ => id) rfl (Conduct.drives_ofKind hactions _) (.inl rfl)
  have hreads : ((r.2.fetchAnswer? r.1).any fun a => a.call < 2) = true ∧ r.2.client.Asked 2 :=
    (by decide +kernel : ∀ r ∈ (_ : List (Frame.Body × World)),
      ((r.2.fetchAnswer? r.1).any fun a => a.call < 2) = true ∧ r.2.client.Asked 2) r hr
  obtain ⟨a, ha, hlt⟩ := (Option.any_eq_true ..).1 hreads.1
  exact ⟨a, ha, ((hrun.2.2 r hr).2.2 a 2 ha hreads.2 (by simpa using hlt))⟩

/-- A subscriber asks for completions when it is told that all fetches are given up. So two are
wanted, and the completion is shown that comes with the answer to the first of two requests. -/
theorem older_fetch_shown_if_asked_within :
    let t : Transport := ⟨true, [], .atOnce, false, []⟩
    let answer (id : Nat) (uuid : String) : Action := .client
      (.receive (Frame.encode (Message.response (.int id) (.obj [("completions",
        .arr [.obj [("uuid", .str uuid), ("text", .str "t"), ("displayText", .str "t")]])])
        none).toJson))
    let again : Script :=
      [.assistant (.unsubscribe (.str "changeStatus") "s"), .controller .requestCompletion]
    let actions : List Action :=
      [.assistant (.subscribe (.str "changeStatus") "s" again), .controller .requestCompletion]
    ∃ w₀ w, startEditing 1 t ⟨.null, .null, [], []⟩ ⟨.str "ab", .str "/a.txt", .null, .lf⟩
        none none none none = .ok w₀ ∧ w₀.withController .null = .ok w ∧
      ¬ ((w.after actions).fetches.underWay.filter fun f => !f.cancelled).length ≤ 1 ∧
      (w.after actions).client.Asked 1 ∧ (w.after actions).client.Asked 2 ∧
      (w.after actions).started = [] ∧ ((w.after actions).readings (answer 1 "old")).map
        (fun r => (r.2.fetchAnswer? r.1).map FetchAnswer.call) = [some 1] ∧
      (act (answer 1 "old") (w.after actions)).2.started = ["old"] :=
  ⟨_, _, rfl, rfl, by decide +kernel, by decide +kernel, by decide +kernel, by decide +kernel,
    by decide +kernel, by decide +kernel⟩

end World

end GhostText
