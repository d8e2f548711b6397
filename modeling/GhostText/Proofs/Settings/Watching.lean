import GhostText.Proofs.Settings.Keys
import GhostText.Settings.Operation
import Mathlib.Data.List.Nodup

/-!
# Listeners that look on

A listener that looks on does not fail and changes nothing in the store. As long as all listeners
are of this kind, telling them adds the notices and does nothing else, and every operation of the
host leaves a store of which this is true.
-/

namespace GhostText

/-- The operation asks for settings or turns to the file. -/
def StoreOperation.looksOn : StoreOperation → Bool
  | .valueOf _ _ => true
  | .data => true
  | .writeFile _ => true
  | .deleteFile => true
  | .showFile => true
  | .makeDirectory => true
  | .blockFolder => true
  | _ => false

/-- A listener that does not fail and lets the store be. -/
structure StoreListener.LooksOn (l : StoreListener) : Prop where
  script : ∀ op ∈ l.script, op.looksOn
  failure : l.failure = none

/-- A listener that the operation adds looks on. -/
def StoreOperation.Fits : StoreOperation → Prop
  | .listen _ label script failure => StoreListener.LooksOn ⟨label, script, failure⟩
  | _ => True

namespace Store

variable {s s' : Store StoreListener}

/-- No key has two entries, and all listeners look on. -/
structure Watched (s : Store StoreListener) : Prop where
  keys : s.keysListenedTo.Nodup
  listeners : ∀ b ∈ s.subscriptions, ∀ l ∈ b.listeners, l.2.LooksOn

theorem Watched.of_subscriptions (h : s.Watched) (hs : s'.subscriptions = s.subscriptions) :
    s'.Watched :=
  ⟨by rw [keysListenedTo, hs]; exact h.keys, by rw [hs]; exact h.listeners⟩

/-- Whoever listens to a key has subscribed. -/
theorem mem_listenersOf {key : String} {l : StoreListener} (hl : l ∈ s.listenersOf key) :
    ∃ b ∈ s.subscriptions, ∃ p ∈ b.listeners, p.2 = l := by
  rw [listenersOf] at hl
  split at hl
  · next b hb => exact ⟨b, List.mem_of_find?_eq_some hb, List.mem_map.1 hl⟩
  · cases hl

theorem Watched.looksOn (h : s.Watched) {key : String} {l : StoreListener}
    (hl : l ∈ s.listenersOf key) : l.LooksOn := by
  obtain ⟨b, hb, p, hp, rfl⟩ := mem_listenersOf hl
  exact h.listeners b hb p hp

theorem listenersOf_of_subscriptions (hs : s'.subscriptions = s.subscriptions) (key : String) :
    s'.listenersOf key = s.listenersOf key := by
  rw [listenersOf, listenersOf, hs]

theorem listenersOf_eq_nil {key : String} (h : key ∉ s.keysListenedTo) :
    s.listenersOf key = [] := by
  rw [listenersOf, List.find?_eq_none.2 fun b hb hk => h ?_]
  exact List.mem_map.2 ⟨b, hb, eq_of_beq hk⟩

/-! ## What keeps a store watched -/

theorem watched_create (defaults : Fields) (persistent : Bool) :
    (create defaults persistent : Store StoreListener).Watched :=
  ⟨List.nodup_nil, by simp [create]⟩

/-- A listener of a new key adds an entry, and of a known one adds none. -/
theorem keys_addListener (key : String) (l : Nat × StoreListener)
    (bs : List (KeyListeners StoreListener)) :
    (addListener key l bs).map KeyListeners.key =
      if key ∈ bs.map KeyListeners.key then bs.map KeyListeners.key
      else bs.map KeyListeners.key ++ [key] := by
  induction bs with
  | nil => rfl
  | cons b bs ih =>
    rw [addListener]
    split
    · next h => simp [h]
    · next h =>
      have hne : key ≠ b.key := fun e => h e.symm
      simp only [List.map_cons, ih, List.mem_cons, hne, false_or]
      split <;> rfl

theorem mem_addListener {key : String} {l : Nat × StoreListener}
    {bs : List (KeyListeners StoreListener)} {b : KeyListeners StoreListener}
    (hb : b ∈ addListener key l bs) {x : Nat × StoreListener} (hx : x ∈ b.listeners) :
    x = l ∨ ∃ b ∈ bs, x ∈ b.listeners := by
  induction bs with
  | nil =>
    cases List.mem_singleton.1 hb
    exact .inl (List.mem_singleton.1 hx)
  | cons c bs ih =>
    rw [addListener] at hb
    split at hb
    · obtain rfl | hb := List.mem_cons.1 hb
      · obtain hx | hx := List.mem_append.1 hx
        · exact .inr ⟨c, List.mem_cons_self, hx⟩
        · exact .inl (List.mem_singleton.1 hx)
      · exact .inr ⟨b, List.mem_cons_of_mem c hb, hx⟩
    · obtain rfl | hb := List.mem_cons.1 hb
      · exact .inr ⟨b, List.mem_cons_self, hx⟩
      · obtain rfl | ⟨d, hd, hx⟩ := ih hb
        · exact .inl rfl
        · exact .inr ⟨d, List.mem_cons_of_mem c hd, hx⟩

theorem Watched.listen (h : s.Watched) (key : String) {l : StoreListener} (hl : l.LooksOn) :
    (s.listen key l).2.Watched := by
  constructor
  · show ((addListener key _ s.subscriptions).map KeyListeners.key).Nodup
    rw [keys_addListener]
    split
    · exact h.keys
    · next hk => exact List.nodup_append_comm.1 (List.nodup_cons.2 ⟨hk, h.keys⟩)
  · intro b hb x hx
    obtain rfl | ⟨c, hc, hx⟩ := mem_addListener hb hx
    · exact hl
    · exact h.listeners c hc x hx

/-- A listener that leaves takes no other one with it. -/
theorem Watched.unlisten (h : s.Watched) (number : Nat) : (s.unlisten number).Watched := by
  constructor
  · simpa [Store.unlisten, keysListenedTo, Function.comp_def] using h.keys
  · intro b hb x hx
    obtain ⟨c, hc, rfl⟩ := List.mem_map.1 hb
    exact h.listeners c hc x (List.mem_filter.1 hx).1

/-! ## The file -/

/-- Reading the file changes what the settings are or why it was no use, and nothing else. -/
theorem readFrom_cases (disk : Disk) (s : Store StoreListener) :
    (∃ reason, s.readFrom disk = .refused { s with lastError := some reason }) ∨
    ∃ data dirty, s.readFrom disk =
      .taken { s with data := data, dirty := dirty, lastError := none } := by
  rw [readFrom]
  split
  · cases disk.readObject with
    | error reason => exact .inl ⟨reason, rfl⟩
    | ok fields => exact .inr ⟨_, _, rfl⟩
  · exact .inr ⟨_, _, rfl⟩

theorem subscriptions_save {disk disk' : Disk} (h : s.save disk = .ok (disk', s')) :
    s'.subscriptions = s.subscriptions := by
  unfold save at h
  split at h
  · cases h; rfl
  · split at h
    · cases h
    · cases h; rfl

theorem subscriptions_openAt (disk : Disk) :
    (openAt disk : Store StoreListener × _).1.subscriptions = [] := by
  rw [openAt]
  obtain ⟨reason, h⟩ | ⟨data, dirty, h⟩ :=
    readFrom_cases disk (create Config.default.fields true)
  · rw [h]; rfl
  · rw [h]
    dsimp only
    split
    · split
      · next hsave => exact subscriptions_save hsave
      · rfl
    · rfl

def written (key : String) (value : Json) (s : Store StoreListener) : Store StoreListener :=
  { s with data := Json.putPath value (Json.pathOf key) s.data, dirty := true }

/-- A value that is another one is written under its key. -/
theorem put?_eq_written {key : String} {value : Json} (hkey : key ≠ "")
    (h : sameValue (s.get? key) (some value) = false) :
    s.put? key value = .ok (some (s.written key value)) := by
  rw [put?, if_neg (by simp [h]), Json.setKey_eq_ok hkey]
  rfl

/-! ## Notices -/

def announcements (key : String) (value : Json) (s : Store StoreListener) : List StoreEvent :=
  (s.listenersOf key).map fun l => .changed l.label key value

/-- The listeners of a key are told of its value if it was another one before. -/
def difference (before : Option Json) (key : String) (s : Store StoreListener) :
    List StoreEvent :=
  if sameValue before (s.get? key) then [] else announcements key ((s.get? key).getD .null) s

end Store

namespace StoreWorld

/-! ## What tells the listeners and does nothing else -/

/-- An action answers, leaves the store as it is and adds events. -/
def Notes {α : Type} (x : Act StoreWorld α) (a : α) (es : List StoreEvent) (w : StoreWorld) :
    Prop :=
  ∃ w', x.runFrom w = (.ok a, w') ∧ w'.store = w.store ∧ w'.events = w.events ++ es

section Notes

variable {α β : Type} {w : StoreWorld} {es fs : List StoreEvent}

theorem notes_pure (a : α) (w : StoreWorld) : Notes (pure a) a [] w :=
  ⟨w, rfl, rfl, (List.append_nil _).symm⟩

theorem notes_record (e : StoreEvent) (w : StoreWorld) :
    Notes (modify (record e)) ⟨⟩ [e] w :=
  ⟨w.record e, rfl, rfl, rfl⟩

theorem Notes.bind {x : Act StoreWorld α} {f : α → Act StoreWorld β} {a : α} {b : β}
    (hx : Notes x a es w) (hf : ∀ w', w'.store = w.store → Notes (f a) b fs w') :
    Notes (x >>= f) b (es ++ fs) w := by
  obtain ⟨w₁, h₁, hs₁, he₁⟩ := hx
  obtain ⟨w₂, h₂, hs₂, he₂⟩ := hf w₁ hs₁
  refine ⟨w₂, ?_, hs₂.trans hs₁, by rw [he₂, he₁, List.append_assoc]⟩
  rw [Act.runFrom_bind h₁, h₂]

theorem Notes.bind_quiet {x : Act StoreWorld α} {f : α → Act StoreWorld β} {a : α} {b : β}
    (hx : Notes x a es w) (hf : ∀ w', w'.store = w.store → Notes (f a) b [] w') :
    Notes (x >>= f) b es w := by
  simpa using hx.bind hf

theorem Notes.get {f : StoreWorld → Act StoreWorld α} {a : α} (h : Notes (f w) a es w) :
    Notes (MonadState.get >>= f) a es w := by
  obtain ⟨w', h, hs, he⟩ := h
  exact ⟨w', by rw [Act.runFrom_get_bind, h], hs, he⟩

/-- A loop adds the events of its rounds, one after the other. -/
theorem notes_forIn {body : β → PUnit → Act StoreWorld (ForInStep PUnit)}
    {es : β → List StoreEvent} {xs : List β}
    (h : ∀ x ∈ xs, ∀ w', w'.store = w.store → Notes (body x ⟨⟩) (.yield ⟨⟩) (es x) w') :
    Notes (forIn xs PUnit.unit body) ⟨⟩ (xs.flatMap es) w := by
  induction xs generalizing w with
  | nil => exact notes_pure _ w
  | cons x xs ih =>
    rw [List.forIn_cons, List.flatMap_cons]
    refine (h x List.mem_cons_self w rfl).bind fun w' hw' => ?_
    exact ih fun y hy v hv => h y (List.mem_cons_of_mem x hy) v (hv.trans hw')

end Notes

theorem notes_perform (run : Runner) {op : StoreOperation} (h : op.looksOn) (w : StoreWorld) :
    ∃ r, Notes (perform run op) r [] w := by
  cases op
  case valueOf | data | writeFile | deleteFile | showFile | makeDirectory | blockFolder =>
    exact ⟨_, _, rfl, rfl, (List.append_nil _).symm⟩
  all_goals cases h

/-- A listener that looks on notes nothing besides having been told. -/
theorem notes_runScript (depth : Nat) {ops : List StoreOperation} (h : ∀ op ∈ ops, op.looksOn)
    (w : StoreWorld) : Notes (runScript (depth + 1) ops) ⟨⟩ [] w := by
  induction ops generalizing w with
  | nil => exact notes_pure _ w
  | cons op ops ih =>
    obtain ⟨r, hr⟩ := notes_perform (runScript depth) (h op List.mem_cons_self) w
    have hop : Notes (discard (perform (runScript depth) op)) ⟨⟩ [] w :=
      hr.bind fun w' _ => notes_pure _ w'
    exact hop.bind fun w' _ => ih (fun o ho => h o (List.mem_cons_of_mem op ho)) w'

/-- Told while the store is `s`, the listener does not fail, changes nothing in the store and makes
no listener run. -/
structure LeavesBe (run : Runner) (s : Store StoreListener) (l : StoreListener) : Prop where
  script : ∀ w, w.store = s → Notes (run l.script) ⟨⟩ [] w
  failure : l.failure = none

/-! ## What telling adds -/

section Telling

variable {run : Runner} {w : StoreWorld}

/-- All listeners of the key are told, and nothing else happens. -/
theorem notes_tell {key : String} (h : ∀ l ∈ w.store.listenersOf key, LeavesBe run w.store l)
    (value : Json) : Notes (tell run key value) ⟨⟩ (w.store.announcements key value) w := by
  rw [Store.announcements, List.map_eq_flatMap]
  refine Notes.get ((notes_forIn fun l hl w' hw' => ?_).bind_quiet fun w' _ => notes_pure _ w')
  obtain ⟨hscript, hfailure⟩ := h l hl
  refine (notes_record _ w').bind fun v hv => (hscript v (hv.trans hw')).bind fun v' _ => ?_
  rw [hfailure]
  exact notes_pure _ v'

/-- Every listened key is looked at, and the listeners of those with another value are told. -/
theorem notes_tellDifferences
    (h : ∀ key, ∀ l ∈ w.store.listenersOf key, LeavesBe run w.store l) (before : Fields) :
    Notes (tellDifferences run before) ⟨⟩ (w.store.keysListenedTo.flatMap fun key =>
      w.store.difference (Json.getKey? key (.obj before)) key) w := by
  refine Notes.get ((notes_forIn fun key _ w' hw' => ?_).bind_quiet fun w' _ => notes_pure _ w')
  refine Notes.get ?_
  have hkey : ∀ l ∈ w'.store.listenersOf key, LeavesBe run w'.store l := hw' ▸ h key
  rw [← hw', Store.difference]
  dsimp only
  cases Store.sameValue (Json.getKey? key (.obj before)) (w'.store.get? key) with
  | true => exact notes_pure _ w'
  | false => exact (notes_tell hkey _).bind_quiet fun v _ => notes_pure _ v

end Telling

/-! ## One operation -/

section Step

variable {w : StoreWorld}

/-- A listener that looks on leaves every store be. -/
theorem leavesBe {s : Store StoreListener} (hs : s.Watched) {key : String} {l : StoreListener}
    (hl : l ∈ s.listenersOf key) : LeavesBe (runScript depthLimit) s l :=
  ⟨fun w _ => notes_runScript 199 (hs.looksOn hl).script w, (hs.looksOn hl).failure⟩

/-- Loading what cannot be used changes no setting and tells nobody. -/
theorem step_load_refused {s : Store StoreListener} (h : w.store.readFrom w.disk = .refused s) :
    step .load w = (.ok (.value (.obj s.data)), { w with store := s }) := by
  rw [step, perform, Act.runFrom_get_bind, h]
  rfl

/-- Loading tells of every difference between the settings from before and those of the file. -/
theorem step_load_taken {s : Store StoreListener} (h : w.store.readFrom w.disk = .taken s)
    (hs : ∀ key, ∀ l ∈ s.listenersOf key, LeavesBe (runScript depthLimit) s l) :
    ∃ w', step .load w = (.ok (.value (.obj s.data)), w') ∧ w'.store = s ∧
      w'.events = w.events ++
        s.keysListenedTo.flatMap fun key => s.difference (w.store.get? key) key := by
  obtain ⟨w', hrun, hstore, hevents⟩ :=
    notes_tellDifferences (w := { w with store := s }) hs w.store.data
  refine ⟨w', ?_, hstore, hevents⟩
  rw [step, perform, Act.runFrom_get_bind, h]
  dsimp only
  rw [Act.runFrom_set_bind, Act.runFrom_bind hrun, Act.runFrom_get_bind, hstore]
  rfl

/-- Where the listeners look on, loading leaves them as they are. It tells of every difference, or
there is a reason why the file is no use, and then it changes no setting and tells nobody. -/
theorem step_load_cases (hw : w.store.Watched) : ∃ w',
    step .load w = (.ok (.value (.obj w'.store.data)), w') ∧
    w'.store.subscriptions = w.store.subscriptions ∧
    (w'.store.lastError ≠ none ∧ w'.store.data = w.store.data ∧ w'.events = w.events ∨
      w'.store.lastError = none ∧ w'.events = w.events ++
        w'.store.keysListenedTo.flatMap fun key => w'.store.difference (w.store.get? key) key) := by
  obtain ⟨reason, h⟩ | ⟨data, dirty, h⟩ := Store.readFrom_cases w.disk w.store
  · exact ⟨{ w with store := { w.store with lastError := some reason } }, step_load_refused h, rfl,
      .inl ⟨Option.some_ne_none reason, rfl, rfl⟩⟩
  · have hs : Store.Watched { w.store with data := data, dirty := dirty, lastError := none } :=
      hw.of_subscriptions rfl
    obtain ⟨w', hstep, hstore, hevents⟩ := step_load_taken h fun key l hl => leavesBe hs hl
    rw [← hstore] at hstep hevents
    exact ⟨w', hstep, by rw [hstore], .inr ⟨by rw [hstore], hevents⟩⟩

/-- A value that is there already is not set again. -/
theorem step_setValue_same {key : String} {value : Json}
    (h : Store.sameValue (w.store.get? key) (some value) = true) :
    step (.setValue key value) w = (.ok (.value (.bool false)), w) := by
  rw [step, perform, Act.runFrom_get_bind, Store.put?, if_pos h]
  rfl

/-- Nothing can be set under the empty key. -/
theorem step_setValue_empty {value : Json}
    (h : Store.sameValue (w.store.get? "") (some value) = false) :
    step (.setValue "" value) w = (.error .emptyKey, w) := by
  rw [step, perform, Act.runFrom_get_bind, Store.put?, if_neg (by simp [h])]
  rfl

/-- Setting tells the listeners of the key it was given. -/
theorem step_setValue (hw : w.store.Watched) {key : String} {value : Json} (hkey : key ≠ "")
    (h : Store.sameValue (w.store.get? key) (some value) = false) :
    ∃ w', step (.setValue key value) w = (.ok (.value (.bool true)), w') ∧
      w'.store = w.store.written key value ∧
      w'.events = w.events ++ w.store.announcements key value := by
  have hwritten : (w.store.written key value).Watched := hw.of_subscriptions rfl
  have htold : Notes (tell (runScript depthLimit) key value) ⟨⟩
      ((w.store.written key value).announcements key value)
      { w with store := w.store.written key value } :=
    notes_tell (w := { w with store := w.store.written key value })
      (fun l hl => leavesBe hwritten hl) value
  obtain ⟨w', hrun, hstore, hevents⟩ := htold
  refine ⟨w', ?_, hstore, hevents⟩
  rw [step, perform, Act.runFrom_get_bind, Store.put?_eq_written hkey h]
  dsimp only
  rw [Act.runFrom_set_bind, Act.runFrom_bind hrun]
  rfl

theorem watched_step (hw : w.store.Watched) {op : StoreOperation} (hop : op.Fits) :
    (step op w).2.store.Watched := by
  cases op with
  | load =>
    obtain ⟨w', hstep, hsub, -⟩ := step_load_cases hw
    rw [hstep]
    exact hw.of_subscriptions hsub
  | save =>
    rw [step, perform, Act.runFrom_get_bind]
    cases h : w.store.save w.disk with
    | error f => exact hw
    | ok p => exact hw.of_subscriptions (Store.subscriptions_save h)
  | reopen =>
    have hs := Store.subscriptions_openAt w.disk
    rw [step, perform, Act.runFrom_get_bind]
    cases h : (Store.openAt w.disk : Store StoreListener × _) with | mk s rest =>
    rw [h] at hs
    have hopened : s.Watched := (Store.watched_create [] true).of_subscriptions hs
    obtain ⟨disk, _ | text⟩ := rest <;> exact hopened
  | setValue key value =>
    cases h : Store.sameValue (w.store.get? key) (some value) with
    | true => rwa [step_setValue_same h]
    | false =>
      by_cases hkey : key = ""
      · subst hkey
        rwa [step_setValue_empty h]
      · obtain ⟨w', hstep, hstore, -⟩ := step_setValue hw hkey h
        rw [hstep, hstore]
        exact hw.of_subscriptions rfl
  | config =>
    rw [step, perform, Act.runFrom_get_bind]
    cases w.store.config <;> exact hw
  | listen key label script failure => exact hw.listen key hop
  | unlisten label =>
    rw [step, perform, Act.runFrom_get_bind]
    cases w.labels.lookup label with
    | none => exact hw
    | some number => exact hw.unlisten number
  | valueOf | data | writeFile | deleteFile | showFile | makeDirectory | blockFolder => exact hw

end Step

end StoreWorld

end GhostText
