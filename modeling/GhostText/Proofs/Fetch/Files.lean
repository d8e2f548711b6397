import GhostText.Proofs.Fetch.Newest

/-!
# Fetches and files

When the host goes over to another file the live session ends and what waits to be told is dropped,
but the fetches stay as they are. So a completion that was asked for in the old file is shown in the
new one unless its fetch was given up before.
-/

namespace GhostText

theorem Conduct.drives_append {k : Conduct} {before actions : List Action} {w : World} :
    k.Drives (before ++ actions) w ↔ k.Drives before w ∧ k.Drives actions (w.after before) := by
  induction before generalizing w with
  | nil => simp [Drives]
  | cons a before ih => simp [Drives, ih, and_assoc]

namespace World

variable {k : Conduct} {w : World}

/-! ## Going over to another file -/

theorem underWay_didClose (uri : Json) (w : World) :
    (didClose uri w).fetches.underWay = w.fetches.underWay := by
  obtain ⟨es, he⟩ := notify_adds "textDocument/didClose"
    (.obj [("textDocument", .obj [("uri", .str uri.textOrEmpty)])]) w
  rw [didClose, he]

theorem underWay_closePath (path : Json) (w : World) :
    (closePath path w).2.fetches.underWay = w.fetches.underWay := by
  unfold closePath
  split
  · rfl
  · split
    · rfl
    · exact underWay_didClose ..

theorem underWay_openPath (path : Json) (w : World) :
    (openPath path w).2.fetches.underWay = w.fetches.underWay := by
  unfold openPath
  dsimp only
  split
  · rfl
  · next uri _ =>
    have hstep : DocumentStep _ _ := .openUnder (w := w.updateFetches fun t =>
      { t with activeFile := .str path.shown, languageId := .str w.editor.languageId }) uri
    have hunderWay := congrArg Fetches.underWay hstep.informs.fetches
    exact hunderWay

/-- Going over to another file leaves the fetches under way. -/
theorem underWay_switchFile (newPath oldPath : Json) (w : World) :
    (switchFile newPath oldPath w).2.fetches.underWay = w.fetches.underWay := by
  have hreject : (w.rejectCurrent "superseded").2.fetches = w.fetches :=
    (beside_rejectCurrent ..).fetches
  have hclose := underWay_closePath oldPath (w.rejectCurrent "superseded").2
  unfold switchFile
  generalize closePath oldPath _ = x at hclose ⊢
  obtain ⟨_ | _, w₁⟩ := x
  · exact hclose.trans (by rw [hreject])
  · dsimp only at hclose ⊢
    rw [hreject] at hclose
    split
    · exact (underWay_openPath ..).trans hclose
    · exact hclose

/-! ## Answers that come in another file -/

/-- In every run whose scripts ask for no completions and show none, where no answer comes while a
request is written: going over to another file gives up no fetch. With the answer to a request that
was made before, a session begins in the new file only if the fetch was still wanted when the host
went over; otherwise the server is told that all of its completions are turned down. -/
theorem shown_in_other_file_only_if_wanted {t : Transport} {setup : ClientSetup}
    {before after : List Action} {newPath oldPath : Json} (begins : Begins t setup w)
    (equips : k.Equips setup) (abstains : k.Abstains) (unready : t.answers = [])
    (drives : k.Drives (before ++ .controller (.switchFile newPath oldPath) :: after) w)
    {a : Action} :
    let w₁ := w.after before
    let w₂ := (act (.controller (.switchFile newPath oldPath)) w₁).2
    (∀ id, w₂.fetches.Wants id ↔ w₁.fetches.Wants id) ∧
    ∀ r ∈ (w₂.after after).readings a,
      ((dispatch (runTo depthLimit) r.2 r.1).started ≠ r.2.started →
        ∃ answer, r.2.fetchAnswer? r.1 = some answer ∧ r.2.client.Asked answer.call ∧
          (answer.call < w₁.client.nextId → w₁.fetches.Wants answer.task)) ∧
      ∀ answer, r.2.fetchAnswer? r.1 = some answer → answer.call < w₁.client.nextId →
        ¬ w₁.fetches.Wants answer.task →
          r.2.TurnsDown (dispatch (runTo depthLimit) r.2 r.1) answer.verdict := by
  intro w₁ w₂
  obtain ⟨hbefore, hswitch, hafter⟩ := Conduct.drives_append.1 drives
  have hr : ∀ r, (runTo depthLimit).Steady r := fun _ => steady_runTo depthLimit
  have hspared : w₁.Ordered k w₁.client.nextId w₁.fetches.Wants :=
    ((begins.ordered equips unready).after abstains hbefore).spare
  have hordered := (hspared.act abstains hswitch).after abstains hafter
  refine ⟨fun id => ?_, fun r hmem => ?_⟩
  · have hunderWay : w₂.fetches.underWay = w₁.fetches.underWay := underWay_switchFile ..
    rw [Fetches.Wants, hunderWay, Fetches.Wants]
  · have hread := hordered.readings abstains a r hmem
    refine ⟨fun hs => ?_, fun answer ha hlt hunwanted => ?_⟩
    · obtain ⟨answer, ha, hcurrent⟩ := hread.current_of_started hr abstains hs
      refine ⟨answer, ha, asked_of_fetchAnswer? ha hread.fetchesAsk, fun hlt => ?_⟩
      by_contra hunwanted
      exact hcurrent (.inl ⟨hlt, hunwanted⟩)
    · exact hread.turnsDown hr abstains ha (.inl ⟨hlt, hunwanted⟩)

/-- The host gives up the fetches before it goes over to another file. -/
theorem shown_in_other_file_only_if_wanted_given_up :
    let t : Transport := ⟨true, [], .atOnce, false, []⟩
    let answer : Action := .client
      (.receive (Frame.encode (Message.response (.int 1) (.obj [("completions",
        .arr [.obj [("uuid", .str "old"), ("text", .str "t")]])]) none).toJson))
    let before : List Action :=
      [.controller .openDocument, .controller .requestCompletion, .task .cancelAll]
    let switch : Action := .controller (.switchFile (.str "/b.txt") (.str "/a.txt"))
    let after : List Action := [.editor (.focus true)]
    ∃ w₀ w, startEditing 1 t ⟨.null, .null, [], []⟩ ⟨.str "ab", .str "/a.txt", .null, .lf⟩
        none none none none = .ok w₀ ∧ w₀.withController .null = .ok w ∧
      (((act switch (w.after before)).2.after after).readings answer).length = 1 ∧
      ∀ r ∈ ((act switch (w.after before)).2.after after).readings answer,
        ∃ a, r.2.fetchAnswer? r.1 = some a ∧ a.call < (w.after before).client.nextId ∧
          r.2.TurnsDown (dispatch (runTo depthLimit) r.2 r.1) a.verdict := by
  intro t answer before switch after
  refine ⟨_, _, rfl, rfl, by decide +kernel, fun r hr => ?_⟩
  have begins : Begins t ⟨.null, .null, [], []⟩ _ :=
    .controller 1 ⟨.str "ab", .str "/a.txt", .null, .lf⟩ none none none none .null rfl rfl
  have hactions : ∀ a ∈ before ++ switch :: after,
      a.drives ∨ (a.isAbstaining && a.inner.isEmpty) := by
    decide
  obtain ⟨-, hrun⟩ := shown_in_other_file_only_if_wanted (a := answer) begins
    (by simp [Conduct.Equips]) (Conduct.abstains_ofKind fun _ => id) rfl
    (Conduct.drives_ofKind hactions _)
  have hreads : ((r.2.fetchAnswer? r.1).any fun a => a.call = 1 ∧ a.task = 1) = true :=
    (by decide +kernel : ∀ r ∈ (_ : List (Frame.Body × World)),
      ((r.2.fetchAnswer? r.1).any fun a => a.call = 1 ∧ a.task = 1) = true) r hr
  obtain ⟨a, ha, hone⟩ := (Option.any_eq_true ..).1 hreads
  obtain ⟨hcall, htask⟩ : a.call = 1 ∧ a.task = 1 := of_decide_eq_true hone
  refine ⟨a, ha, ?_, (hrun r hr).2 a ha ?_ ?_⟩
  · rw [hcall]
    decide +kernel
  · rw [hcall]
    decide +kernel
  · rw [htask]
    decide +kernel

/-- An answer comes in another file than the one it was asked for in, and is shown. -/
theorem shown_in_other_file :
    let t : Transport := ⟨true, [], .atOnce, false, []⟩
    let answer : Action := .client
      (.receive (Frame.encode (Message.response (.int 1) (.obj [("completions",
        .arr [.obj [("uuid", .str "old"), ("text", .str "t"), ("displayText", .str "t")]])])
        none).toJson))
    let actions : List Action := [.controller .openDocument, .controller .requestCompletion,
      .controller (.switchFile (.str "/b.txt") (.str "/a.txt"))]
    ∃ w₀ w, startEditing 1 t ⟨.null, .null, [], []⟩ ⟨.str "ab", .str "/a.txt", .null, .lf⟩
        none none none none = .ok w₀ ∧ w₀.withController .null = .ok w ∧
      (w.after actions).fetches.activeFile.shown = "/b.txt" ∧ (w.after actions).started = [] ∧
      ((w.after actions).readings answer).map
        (fun r => (r.2.fetchAnswer? r.1).map FetchAnswer.call) = [some 1] ∧
      (act answer (w.after actions)).2.started = ["old"] :=
  ⟨_, _, rfl, rfl, by decide +kernel, by decide +kernel, by decide +kernel, by decide +kernel⟩

end World

end GhostText
