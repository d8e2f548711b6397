import GhostText.Proofs.Run.Performing

/-!
# Runs

A run begins with a client or with an assistant, and it goes on from action to action. At its
beginning no call was made and nothing has happened but that warnings were logged.
-/

namespace GhostText

/-! ## From action to action -/

def World.after (actions : List Action) (w : World) : World :=
  actions.foldl (fun w a => (World.act a w).2) w

@[simp] theorem World.after_nil (w : World) : w.after [] = w := rfl

@[simp] theorem World.after_cons (a : Action) (actions : List Action) (w : World) :
    w.after (a :: actions) = (World.act a w).2.after actions := rfl

theorem World.after_append (before actions : List Action) (w : World) :
    w.after (before ++ actions) = (w.after before).after actions :=
  List.foldl_append ..

namespace Conduct

/-- Every action is one the host may take where it takes it. -/
def Takes (k : Conduct) : List Action → World → Prop
  | [], _ => True
  | a :: rest, w => k.Fits w.client.nextId a ∧ k.Takes rest (World.act a w).2

theorem takes_append {k : Conduct} {before actions : List Action} {w : World} :
    k.Takes (before ++ actions) w ↔ k.Takes before w ∧ k.Takes actions (w.after before) := by
  induction before generalizing w with
  | nil => simp [Takes]
  | cons a before ih => simp [Takes, ih, and_assoc]

/-- The handlers a run begins with have scripts the host may run. -/
def Equips (k : Conduct) (setup : ClientSetup) : Prop :=
  ∀ h ∈ setup.requests ++ setup.notifications, k.AllowsAll h.2.script

/-- A regime in which every call may settle late and all that is asked for or presented may be. -/
def free (k : Conduct) : Regime where
  toConduct := k
  holds _ := True
  asks := True
  engages := True
  asks_of _ _ _ := trivial
  engages_of _ _ _ := trivial

end Conduct

/-- What is sound in some regime is sound where all may happen. -/
theorem Regime.Sound.free {k : Regime} {w : World} (h : k.Sound w) : k.toConduct.free.Sound w :=
  ⟨h.bound, h.ledger, fun _ => .inr trivial, .inr ⟨trivial, trivial⟩⟩

/-- A run is a row of steps, action by action. -/
theorem World.leads_after {k : Regime} {actions : List Action} {w : World}
    (h : k.Takes actions w) : Leads k w (w.after actions) := by
  induction actions generalizing w with
  | nil => exact .refl w
  | cons a actions ih => exact (leads_act h.1).trans (ih h.2)

/-! ## The beginning -/

namespace World

def startEditing (processId : Int) (t : Transport) (setup : ClientSetup) (editor : EditorSetup)
    (folder activeFile tabSize insertSpaces : Option Json) : Except Fault World :=
  ((startAssistant processId t setup).withEditor editor).withFetches folder activeFile tabSize
    insertSpaces

inductive Begins (t : Transport) (setup : ClientSetup) : World → Prop where
  | client (processId : Int) : Begins t setup (startClient processId t setup)
  | assistant (processId : Int) (editor : EditorSetup)
      (folder activeFile tabSize insertSpaces : Option Json) {w : World}
      (started : startEditing processId t setup editor folder activeFile tabSize insertSpaces =
        .ok w) : Begins t setup w
  | controller (processId : Int) (editor : EditorSetup)
      (folder activeFile tabSize insertSpaces : Option Json) (settings : Json) {w w' : World}
      (started : startEditing processId t setup editor folder activeFile tabSize insertSpaces =
        .ok w) (controller : w.withController settings = .ok w') : Begins t setup w'

/-- What entering one handler keeps is kept by entering all of a host. -/
theorem withHandlers_keeps {P : World → Prop} {setup : ClientSetup}
    (requests : ∀ h ∈ setup.requests, ∀ w, P w → P (w.handleRequests h.1 h.2))
    (notifications : ∀ h ∈ setup.notifications, ∀ w, P w → P (w.handleNotifications h.1 h.2))
    {w : World} (hw : P w) : P (w.withHandlers setup) :=
  List.foldlRecOn _ _ (List.foldlRecOn _ _ hw fun w hw h hh => requests h hh w hw)
    fun w hw h hh => notifications h hh w hw

theorem exists_of_withFetches {w w' : World} {folder activeFile tabSize insertSpaces : Option Json}
    (h : w.withFetches folder activeFile tabSize insertSpaces = .ok w') :
    ∃ folder activeFile tabSize insertSpaces, w' = w.updateFetches fun _ =>
      .start (.str folder) (.str activeFile) (.int tabSize) (.bool insertSpaces) := by
  obtain ⟨n, -, hstarted⟩ := exists_of_bind_eq_ok h
  exact ⟨_, _, _, _, (Except.ok.inj hstarted).symm⟩

theorem exists_of_withController {w w' : World} {settings : Json}
    (h : w.withController settings = .ok w') :
    ∃ c, w' = { w with controller := some (.start c w.buffer.text) } := by
  obtain ⟨c, -, hstarted⟩ := exists_of_bind_eq_ok h
  exact ⟨c, (Except.ok.inj hstarted).symm⟩

/-- A world without handlers becomes the beginning of a run by what it is given, one thing after the
other. What each of them keeps holds at the beginning. -/
theorem Begins.keeps {P : World → Prop} {t : Transport} {setup : ClientSetup} {w : World}
    (h : Begins t setup w)
    (client : ∀ processId name verbosity, P (bare processId t name verbosity))
    (assistant : ∀ processId verbosity,
      P (bare processId t "Copilot" verbosity).withServerHandlers)
    (handlers : ∀ w, P w → P (w.withHandlers setup))
    (editor : ∀ w editor, P w → P (w.withEditor editor))
    (fetches : ∀ w folder activeFile tabSize insertSpaces, P w → P (w.updateFetches fun _ =>
      .start (.str folder) (.str activeFile) (.int tabSize) (.bool insertSpaces)))
    (controller : ∀ w c, P w → P { w with controller := some (.start c w.buffer.text) }) : P w := by
  have hstarted : ∀ {processId setup' folder activeFile tabSize insertSpaces w},
      startEditing processId t setup setup' folder activeFile tabSize insertSpaces = .ok w →
        P w := by
    intro processId setup' folder activeFile tabSize insertSpaces w started
    obtain ⟨_, _, _, _, rfl⟩ := exists_of_withFetches started
    exact fetches _ _ _ _ _ (editor _ _ (handlers _ (assistant _ _)))
  cases h with
  | client processId => exact handlers _ (client _ _ _)
  | assistant _ _ _ _ _ _ started => exact hstarted started
  | controller _ _ _ _ _ _ settings started hcontroller =>
    obtain ⟨c, rfl⟩ := exists_of_withController hcontroller
    exact controller _ c (hstarted started)

end World

structure World.Fresh (k : Conduct) (t : Transport) (w : World) : Prop where
  transport : w.transport = t
  calls : w.client.calls = []
  pending : w.client.pending = []
  handlers : k.Handles w.client.handlers
  host : w.host = .start
  sessions : w.sessions = []
  subscriptions : w.assistant.subscriptions = []
  asides : ∀ e ∈ w.events, e.isAside
  listeners : w.editor.listeners = []
  unblocked : w.editor.blocked = false
  panel : w.editor.canvas.panel = ""
  fetches : w.fetches.underWay = []
  slot : ∀ c, w.controller = some c → c.session = none

namespace World

variable {k : Conduct} {t : Transport} {setup : ClientSetup} {w w' : World}

/-- A client that was just made has made no calls and done nothing. -/
theorem fresh_bare (processId : Int) (t : Transport) (name : String) (verbosity : Verbosity) :
    (bare processId t name verbosity).Fresh k t := by
  refine ⟨rfl, rfl, rfl, ⟨?_, ?_⟩, rfl, rfl, rfl, ?_, rfl, rfl, rfl, rfl, ?_⟩ <;>
    simp [bare, Client.start, Handlers.empty]

theorem Fresh.handleRequests (h : w.Fresh k t) (method : String) {spec : HandlerSpec Action}
    (hs : k.AllowsAll spec.script) : (w.handleRequests method spec).Fresh k t := by
  obtain ⟨w₁, ⟨es, rfl, ha⟩, he⟩ := handleRequests_eq method spec w
  rw [he]
  exact ⟨h.transport, h.calls, h.pending, handles_setRequest h.handlers method hs, h.host,
    h.sessions, h.subscriptions, List.forall_mem_append.2 ⟨h.asides, ha⟩, h.listeners, h.unblocked,
    h.panel, h.fetches, h.slot⟩

theorem Fresh.handleNotifications (h : w.Fresh k t) (method : String) {spec : HandlerSpec Action}
    (hs : k.AllowsAll spec.script) : (w.handleNotifications method spec).Fresh k t :=
  ⟨h.transport, h.calls, h.pending, handles_setNotification h.handlers method hs, h.host,
    h.sessions, h.subscriptions, h.asides, h.listeners, h.unblocked, h.panel, h.fetches, h.slot⟩

/-- Handlers are there before anything has happened. -/
theorem Fresh.withHandlers (h : w.Fresh k t) (hs : k.Equips setup) :
    (w.withHandlers setup).Fresh k t :=
  withHandlers_keeps
    (fun e he _ h => h.handleRequests e.1 (hs e (List.mem_append_left _ he)))
    (fun e he _ h => h.handleNotifications e.1 (hs e (List.mem_append_right _ he))) h

theorem fresh_withServerHandlers (processId : Int) (t : Transport) (name : String)
    (verbosity : Verbosity) : (bare processId t name verbosity).withServerHandlers.Fresh k t := by
  have hb := fresh_bare (k := k) processId t name verbosity
  refine ⟨hb.transport, hb.calls, hb.pending, ⟨?_, ?_⟩, hb.host, hb.sessions, hb.subscriptions,
    hb.asides, hb.listeners, hb.unblocked, hb.panel, hb.fetches, hb.slot⟩ <;>
    simp [withServerHandlers, updateClient, bare, Client.start, Handlers.empty]

/-- However a run begins, at its beginning nothing has happened. -/
theorem Begins.fresh (h : Begins t setup w) (hs : k.Equips setup) : w.Fresh k t := by
  refine h.keeps (fun _ => fresh_bare _ t) (fun _ => fresh_withServerHandlers _ t "Copilot")
    (fun _ h => h.withHandlers hs) (fun _ _ h => ?_) (fun _ _ _ _ _ h => ?_) fun _ _ h => ?_
  · exact ⟨h.transport, h.calls, h.pending, h.handlers, h.host, h.sessions, h.subscriptions,
      h.asides, h.listeners, h.unblocked, rfl, h.fetches, h.slot⟩
  · exact ⟨h.transport, h.calls, h.pending, h.handlers, h.host, h.sessions, h.subscriptions,
      h.asides, h.listeners, h.unblocked, h.panel, rfl, h.slot⟩
  · refine ⟨h.transport, h.calls, h.pending, h.handlers, h.host, h.sessions, h.subscriptions,
      h.asides, h.listeners, h.unblocked, h.panel, h.fetches, ?_⟩
    rintro _ ⟨⟩
    rfl

/-- At the beginning of a run all is sound. -/
theorem Fresh.sound (h : w.Fresh k t) : k.free.Sound w := by
  refine ⟨⟨?_, h.handlers, ?_⟩, ⟨?_, ?_, ?_⟩, fun _ => Or.inr trivial, Or.inr ⟨trivial, trivial⟩⟩
  · simp [h.calls]
  · simp [h.host, Host.start]
  · simp [h.calls]
  · simp [h.pending]
  · simp [Client.pendingIds, h.pending]

end World

end GhostText
