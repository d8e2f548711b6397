import GhostText.Proofs.Fetch.Accounting
import Mathlib.Data.List.Perm.Subperm

/-!
# What becomes of the candidates

The host may do what it likes, and the answers of the server may come in any order: at every point
between two operations what the controller was given is what it told the server the end of, and what
the live session shows.
-/

namespace GhostText

variable {k : Conduct} {w w' w'' : World} {g : List String}

/-- A reticent host that leaves it to the controller to fetch and to make sessions. -/
structure Conduct.Cedes (k : Conduct) : Prop extends Conduct.Reticent k where
  fetches : ∀ position c, ¬ k.does (.task (.start position c))
  sessions : ∀ completion inline key tasks,
    ¬ k.does (.session (.create completion inline key tasks))

def Action.isCeding : Action → Bool
  | .task (.start _ _) => false
  | .session (.create _ _ _ _) => false
  | a => a.isReticent

theorem Conduct.cedes_ofKind : (Conduct.ofKind Action.isCeding).Cedes := by
  have hreticent : ∀ a : Action, a.isCeding → a.isReticent := by
    intro a ha
    unfold Action.isCeding at ha
    split at ha <;> simp_all
  exact { Conduct.reticent_ofKind hreticent with
    fetches := fun _ _ h => by simp [Conduct.ofKind, Action.isCeding] at h
    sessions := fun _ _ _ _ h => by simp [Conduct.ofKind, Action.isCeding] at h }

namespace World

/-- From a world between two operations, where all is tidy, the controller is given some completions
and deals with them. -/
def Deals (k : Conduct) (w w' : World) (given : List String) : Prop :=
  w.Standing k → w.Tidy → w'.Standing k ∧ w'.Tidy ∧ w.Balances w' given

namespace Deals

theorem trans {g' : List String} (h : Deals k w w' g) (h' : Deals k w' w'' g') :
    Deals k w w'' (g ++ g') := by
  intro hs ht
  obtain ⟨hs₁, ht₁, hb₁⟩ := h hs ht
  obtain ⟨hs₂, ht₂, hb₂⟩ := h' hs₁ ht₁
  exact ⟨hs₂, ht₂, hb₁.trans hb₂⟩

theorem perm {g' : List String} (h : Deals k w w' g) (hg : g.Perm g') : Deals k w w' g' := by
  intro hs ht
  obtain ⟨hs₁, ht₁, es, he, hb⟩ := h hs ht
  exact ⟨hs₁, ht₁, es, he, hb.perm hg⟩

/-- What a reticent host does meanwhile, and what its scripts do, gives the controller nothing. -/
theorem of_leads (hk : k.Cedes) (h : Leads (k.reticence hk.toReticent) w w') :
    Deals k w w' [] := by
  intro hs ht
  have hsound := hs.sound.reticence hk.toReticent hs.unready
  obtain ⟨ht', hb⟩ := Steps.books (h.steps hsound) nofun hk.writes hk.sessions ht
  exact ⟨Standing.goes (r := k.reticence hk.toReticent) hs hsound hk.fetches h.toGoes, ht', hb⟩

/-- The world in which something is done may be taken to be as it is between two operations. -/
theorem of_tidy (h : w.Standing k → w.Tidy → Deals k w w' g) : Deals k w w' g :=
  fun hs ht => h hs ht hs ht

end Deals

/-! ## Reports -/

theorem deals_notifyRejected (hk : k.Cedes) (uuids : List String) (w : World) :
    Deals k w (w.notifyRejected uuids) uuids := by
  intro hs ht
  have hlead : Leads k.free w (w.notifyRejected uuids) := leads_report rfl trivial _ w
  refine ⟨Standing.goes (r := k.free) hs hs.sound hk.fetches hlead.toGoes, ?_⟩
  obtain ⟨es, ha, he⟩ := post_adds (rejectionOf uuids) w
  obtain ⟨hsettled, hshown⟩ := Json.settledUuids_rejectionOf uuids
  obtain ⟨hasides, hasides'⟩ := settledIn_asides ha
  have hw : w.notifyRejected uuids = _ := he
  rw [hw, ht.accepting]
  have htotal : (w.live ++ uuids).Perm
      (settledIn ([.sent (rejectionOf uuids)] ++ es) ++ w.live) := by
    simpa [Event.settles, hsettled, hasides] using List.perm_append_comm
  refine ⟨⟨ht.accepting, ht.controlled, ht.shown, ht.slot⟩, _, rfl, .of_shown_nil ?_ htotal⟩
  simp [Event.shows, hshown, hasides']

theorem deals_rejectMany (hk : k.Cedes) (uuids : List String) (w : World) :
    Deals k w (if uuids.isEmpty then w else w.notifyRejected uuids) uuids := by
  cases uuids with
  | nil => exact .of_leads hk (.refl w)
  | cons u us => exact deals_notifyRejected hk (u :: us) w

/-! ## A completion is shown -/

/-- Nothing is live, and a session begins. -/
theorem deals_bring (hk : k.Cedes) (completion : Completion) {c : Controller}
    (hc : w.controller = some c) (hslot : w.slot? = none) :
    Deals k w (w.bring completion c) [completion.uuid] := by
  intro hs ht
  have hlead : Leads k.free w (w.bring completion c) :=
    leads_session (.bring completion hc trivial) (closes_bring ..)
      fun _ _ _ h => ⟨_, h.bring hslot hc completion⟩
  refine ⟨Standing.goes (r := k.free) hs hs.sound hk.fetches hlead.toGoes, ?_⟩
  set n := w.sessions.length with hn
  set s := Session.propose completion c.config.inlineInSource c.config.acceptKey true true with hs'
  set w₁ := updateController (fun c => { c with session := some n })
    { w with sessions := w.sessions ++ [s] } with hw₁
  have hself : (w.bring completion c).session? n = some (w.brought completion c) := by
    rw [session?_bring, if_pos rfl]
  have hothers : ∀ m t, n ≠ m → (w.bring completion c).session? m = some t →
      w.session? m = some t := by
    intro m t hm hf
    rwa [session?_bring, if_neg hm] at hf
  have hslot' : (w.bring completion c).slot? = some n := slot?_bring hc completion
  obtain ⟨es, ha, he⟩ := startSession_told n s w₁
  obtain ⟨hasides, hasides'⟩ := settledIn_asides ha
  obtain ⟨hsettled, hshown⟩ := Json.shownUuids_showingOf s.uuid
  have hevents : (w.bring completion c).events =
      w.events ++ ([.sent (showingOf s.uuid)] ++ es ++
        [.signalled (.sessionStarted completion.uuid)]) := by
    have haccepting : w₁.transport.accepting = true := ht.accepting
    have hsignal : (w.bring completion c).events = (w₁.startSession n s).events ++
      [.signalled (.sessionStarted completion.uuid)] := rfl
    rw [hsignal, he, haccepting, List.append_assoc]
    rfl
  refine ⟨⟨?_, ?_, fun m t hf => ?_, fun m => ?_⟩, _, hevents, ?_⟩
  · rw [(beside_bring ..).transport]
    exact ht.accepting
  · rw [controller_bring hc]
    rfl
  · by_cases hm : n = m
    · subst hm
      obtain rfl := Option.some.inj (hself.symm.trans hf)
      exact ⟨rfl, rfl⟩
    · exact ht.shown m t (hothers m t hm hf)
  · rw [hslot', Option.some.injEq]
    constructor
    · rintro rfl
      exact ⟨_, hself, rfl⟩
    · rintro ⟨t, hf, hunfinished⟩
      by_contra hm
      have hlive := (ht.slot m).2 ⟨t, hothers m t hm hf, hunfinished⟩
      simp [hslot] at hlive
  · rw [live_of_slot?_none hslot, live_of_slot? hslot' hself]
    refine .of_shown ?_ ?_
    · simp [Event.settles, hsettled, hasides]
    · simp [Event.shows, hshown, hasides']
      rfl

/-- Where no session is half ended, nothing is live once the live session was rejected. -/
theorem slot?_rejectCurrent (ht : w.Tidy)
    (ended : ∀ n s, w.session? n = some s → s.closing = true → s.isFinished = true)
    (reason : String) : (w.rejectCurrent reason).2.slot? = none := by
  have hslot := w.slot?_eq_bind
  unfold rejectCurrent
  split
  · next hnone => exact hslot.trans hnone
  · next n hn =>
    obtain ⟨s, hs, hunfinished⟩ := (ht.slot n).1 (hslot.trans hn)
    have hopen : s.isOpen = true := by
      have hclosing : s.closing = false := by
        by_contra hc
        simp [ended n s hs (by simpa using hc)] at hunfinished
      simp [Session.isOpen, hunfinished, hclosing]
    obtain ⟨a, -, ha⟩ := session?_withdrawn hs
    have hfinish := finishes_rejected ha reason
    have hreject : (w.rejectSession n reason).2 =
        (((w.beginClosing n).removeSuggestion n s).2).finishRejected n s.uuid reason := by
      simp [rejectSession, hs, hopen]
    obtain ⟨c, hc⟩ := Option.isSome_iff_exists.1 ht.controlled
    have hsession : c.session = some n := by simpa [hc] using hn
    have hcontroller : (((w.beginClosing n).removeSuggestion n s).2).controller = some c := by
      rw [controller_removeSuggestion]
      exact hc
    rw [hreject, slot?]
    refine (congrArg Option.join hfinish.slot).trans ?_
    rw [hcontroller]
    simp [(ht.shown n s hs).2, hsession]

/-- A completion that is shown takes the place of the live one, which is told of. -/
theorem deals_present (hk : k.Cedes) (completion : Completion) (w : World) :
    Deals k w (w.present completion) [completion.uuid] := by
  refine .of_tidy fun hs ht => ?_
  have hreject : Deals k w (w.rejectCurrent "newer-completion").2 [] :=
    .of_leads hk (leads_rejectCurrent ..)
  have hcontrolled := (hreject hs ht).2.1.controlled
  obtain ⟨c, hc⟩ := Option.isSome_iff_exists.1 hcontrolled
  have hpresent : w.present completion =
      (w.rejectCurrent "newer-completion").2.bring completion c := by
    unfold present
    dsimp only
    split
    · next hnone => simp [hnone] at hc
    · next c' hc' =>
      obtain rfl := Option.some.inj (hc.symm.trans hc')
      rfl
  rw [hpresent]
  exact hreject.trans (deals_bring hk completion hc (slot?_rejectCurrent ht hs.ended _))

/-- A completion is shown or turned down, and told of in either case. -/
theorem deals_takeCompletion (hk : k.Cedes) (completion : Completion) (w : World) :
    Deals k w (w.takeCompletion completion) [completion.uuid] := by
  refine .of_tidy fun _ ht => ?_
  obtain ⟨c, hc⟩ := Option.isSome_iff_exists.1 ht.controlled
  unfold takeCompletion
  rw [hc]
  dsimp only
  split
  · exact deals_notifyRejected hk _ w
  · exact deals_present hk completion w

/-! ## The end of a fetch -/

/-- The completions that a fetch is given with an answer: all of them, but none where the server has
cancelled the request and the fetch was not given up. -/
def candidates (task : Nat) (v : Verdict) (w : World) : List String :=
  match v with
  | .ok (.completions r) =>
    if (w.removeFetch task).1 || r.cancellationReason.isNone then r.completions.map Completion.uuid
    else []
  | _ => []

/-- All completions that a fetch brings are dealt with when it ends. -/
theorem deals_endFetch {run : Runner} (hr : ∀ r, run.Steady r) (hk : k.Cedes) (task : Nat)
    (v : Verdict) (w : World) : Deals k w (endFetch run task v w) (w.candidates task v) := by
  cases v with
  | error f => exact .of_leads hk (leads_fetchFailed (hr _) trivial task f w)
  | ok r =>
    cases r with
    | value v => exact .of_leads hk (.refl w)
    | completions r =>
      have hremove : Deals k w (reportIfIdle run (w.removeFetch task).2) [] :=
        .of_leads hk ((leads_removeFetch trivial task w).trans (leads_reportIfIdle (hr _) _))
      unfold endFetch fetchAnswered candidates
      dsimp only
      generalize w.removeFetch task = x at hremove ⊢
      obtain ⟨cancelled, w₁⟩ := x
      dsimp only at hremove ⊢
      cases cancelled with
      | true => exact hremove.trans (deals_rejectMany hk _ _)
      | false =>
        simp only [Bool.false_eq_true, if_false, Bool.false_or]
        cases r.cancellationReason with
        | some reason => exact hremove
        | none =>
          cases r.completions with
          | nil => exact hremove
          | cons first rest =>
            have hrest : (rest.map Completion.uuid).isEmpty = rest.isEmpty := by cases rest <;> rfl
            have hreject := hremove.trans (deals_rejectMany hk (rest.map Completion.uuid) _)
            rw [hrest] at hreject
            refine (hreject.trans (deals_takeCompletion hk first _)).perm ?_
            simp

/-! ## Messages -/

def brings (b : Frame.Body) (w : World) : List String :=
  match w.fetchAnswer? b with
  | none => []
  | some a => w.candidates a.task a.verdict

/-- A message deals with the completions that it brings. -/
theorem deals_dispatch {run : Runner} (hr : ∀ r, run.Steady r) (hk : k.Cedes) (b : Frame.Body)
    (w : World) : Deals k w (dispatch run w b) (w.brings b) := by
  refine .of_tidy fun hs _ => ?_
  have hsound := hs.sound.reticence hk.toReticent hs.unready
  unfold brings
  rcases dispatch_reads (hr _) (hr _) hsound hs.paired b with
    ⟨hnone, hlead⟩ | ⟨p, task, v, w₁, hread, hasides, hlead⟩
  · rw [fetchAnswer?_eq_none hnone hs.paired]
    exact .of_leads hk hlead
  · rw [hread.fetchAnswer?_eq hs.sound.ledger]
    have hanswered : Deals k w (w₁.answered p v) [] :=
      .of_leads hk (leads_answered hread.waiting hasides v)
    have hcandidates : (w₁.answered p v).candidates task v = w.candidates task v := by
      obtain ⟨es, he, -⟩ := hasides
      rw [he]
      rfl
    have hall := (hanswered.trans (deals_endFetch hr hk task v _)).trans (.of_leads hk hlead)
    rw [hcandidates] at hall
    simpa using hall

theorem deals_dispatches {run : Runner} (hr : ∀ r, run.Steady r) (hk : k.Cedes)
    (bodies : List Frame.Body) (w : World) : Deals k w (bodies.foldl (dispatch run) w)
      ((dispatches run bodies w).flatMap fun r => r.2.brings r.1) := by
  induction bodies generalizing w with
  | nil => exact .of_leads hk (.refl w)
  | cons b bodies ih => exact (deals_dispatch hr hk b w).trans (ih _)

/-! ## Operations -/

def gives (a : Action) (w : World) : List String :=
  match a with
  | .controller (.present completion) =>
    ((Completion.ofJson completion).toOption.map Completion.uuid).toList
  | a => (w.readings a).flatMap fun r => r.2.brings r.1

def given : List Action → World → List String
  | [], _ => []
  | a :: rest, w => w.gives a ++ given rest (act a w).2

theorem gives_eq_nil {a : Action} (h : a.engages = false) (w : World) : w.gives a = [] := by
  unfold gives
  split
  · simp [Action.engages] at h
  · unfold readings
    split
    · simp [Action.engages] at h
    · rfl

/-- An action deals with the completions that it gives the controller. -/
theorem deals_act (hk : k.Cedes) {a : Action} (ha : a.shows ∨ k.Fits w.client.nextId a) :
    Deals k w (act a w).2 (w.gives a) := by
  rcases ha with hshows | hfits
  · unfold Action.shows at hshows
    split at hshows
    · next bytes =>
      have hfeed : Deals k w (w.feed bytes) [] := .of_leads hk (leads_feed bytes w)
      exact hfeed.trans (deals_dispatches (fun _ => steady_runTo depthLimit) hk _ _)
    · next completion =>
      rw [act_present, gives]
      cases Completion.ofJson completion with
      | error f => exact .of_leads hk (.refl w)
      | ok c => exact deals_present hk c w
    · cases hshows
  · rw [gives_eq_nil (hk.engages a hfits.does)]
    exact .of_leads hk (leads_act hfits)

/-- A run deals with all that the controller is given in it. -/
theorem deals_after (hk : k.Cedes) {actions : List Action} (h : k.Shows actions w) :
    Deals k w (w.after actions) (w.given actions) := by
  induction actions generalizing w with
  | nil => exact .of_leads hk (.refl w)
  | cons a actions ih => exact (deals_act hk h.1).trans (ih h.2)

/-! ## Whole runs -/

theorem Fresh.tidy {t : Transport} (h : w.Fresh k t) (controlled : w.controller.isSome = true)
    (accepting : t.accepting = true) : w.Tidy := by
  have hsession : ∀ n, w.session? n = none := fun n => by simp [session?, h.sessions]
  refine ⟨h.transport ▸ accepting, controlled, fun n s hs => ?_, fun n => ?_⟩
  · simp [hsession] at hs
  · obtain ⟨c, hc⟩ := Option.isSome_iff_exists.1 controlled
    simp [slot?, hc, h.slot c hc, hsession]

/-- In every run of a controller that alone fetches and shows, over a transport that accepts all
that is written, every completion that the controller is given is told to have ended once, except
that of the live session; and what is told to be shown is told to have ended later, or is live. -/
theorem candidates_settle {t : Transport} {setup : ClientSetup} {actions : List Action}
    (begins : Begins t setup w) (controlled : w.controller.isSome = true)
    (equips : k.Equips setup) (cedes : k.Cedes) (unready : t.answers = [])
    (accepting : t.accepting = true) (shows : k.Shows actions w) :
    (w.given actions).Perm (settledIn (w.after actions).events ++ (w.after actions).live) ∧
    ∀ first last, (w.after actions).events = first ++ last →
      (shownIn last).Subperm (settledIn last ++ (w.after actions).live) := by
  have hfresh := begins.fresh equips
  have htidy := hfresh.tidy controlled accepting
  obtain ⟨-, -, es, he, hb⟩ := deals_after cedes shows (begins.standing equips unready) htidy
  have hlive : w.live = [] := live_of_slot?_none (by
    obtain ⟨c, hc⟩ := Option.isSome_iff_exists.1 controlled
    simp [slot?, hc, hfresh.slot c hc])
  -- at the beginning nothing was told of completions
  have hstart : Balanced [] [] w.events w.live := by
    rw [hlive]
    exact .of_silent fun e h => Event.not_isOfSession_of_isAside (hfresh.asides e h)
  have hrun := hstart.append hb
  rw [← he] at hrun
  refine ⟨List.perm_iff_count.2 fun u => ?_, fun first last hsplit => ?_⟩
  · simpa using hrun.total u
  · exact List.subperm_ext_iff.2 fun u _ => by simpa using hrun.later first last hsplit u

/-- Candidates are turned down as surplus, with an edit and with a fetch that was given up, one is
the server's own to forget, and one is still live. -/
theorem candidates_settle_five_ways :
    let t : Transport := ⟨true, [], .atOnce, false, []⟩
    let completion (uuid : String) : Json := .obj [("uuid", .str uuid), ("text", .str "t")]
    let answer (id : Nat) (fields : Fields) : Action := .client
      (.receive (Frame.encode (Message.response (.int id) (.obj fields) none).toJson))
    let actions : List Action := [.controller .openDocument, .editor (.type (.str "x")),
      .controller .flush, answer 1 [("completions", .arr [completion "a", completion "b"])],
      .editor (.type (.str "y")), .controller .flush, .controller .requestCompletion,
      answer 2 [("completions", .arr [completion "c"])],
      answer 3 [("completions", .arr [completion "d"]), ("cancellationReason", .str "late")],
      .controller (.present (completion "e"))]
    ∃ w₀ w, startEditing 1 t ⟨.null, .null, [], []⟩ ⟨.str "ab", .str "/a.txt", .null, .lf⟩
        none none none none = .ok w₀ ∧ w₀.withController .null = .ok w ∧
      ((w.given actions).Perm (settledIn (w.after actions).events ++ (w.after actions).live) ∧
        ∀ first last, (w.after actions).events = first ++ last →
          (shownIn last).Subperm (settledIn last ++ (w.after actions).live)) ∧
      w.given actions = ["a", "b", "c", "e"] ∧ (w.after actions).live = ["e"] := by
  intro t completion answer actions
  refine ⟨_, _, rfl, rfl, ?_, by decide +kernel, by decide +kernel⟩
  have begins : Begins t ⟨.null, .null, [], []⟩ _ :=
    .controller 1 ⟨.str "ab", .str "/a.txt", .null, .lf⟩ none none none none .null rfl rfl
  have hactions : ∀ a ∈ actions, a.shows ∨ (a.isCeding && a.inner.isEmpty) := by decide
  exact candidates_settle begins rfl (by simp [Conduct.Equips]) Conduct.cedes_ofKind rfl rfl
    (Conduct.shows_ofKind hactions _)

end World

end GhostText
