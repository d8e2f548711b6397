import GhostText.Proofs.Settings.Watching

/-!
# Who is told of a change

Loading compares every key that is listened to with what it was; setting tells the listeners of the
key it was given. So after loading everyone has been told who had to be, but after setting a key the
listeners of the keys above it have not, although those have changed, nor have those of the keys
below it that have.
-/

namespace GhostText

/-- The label and the value, if a listener of the key was told. -/
def StoreEvent.noticeOf (key : String) : StoreEvent → Option (String × Json)
  | .changed label k v => if k = key then some (label, v) else none
  | .logged _ _ => none

namespace Store

variable {s : Store StoreListener}

/-- What listeners have to be told of a value before and now: each the value now, if it is another
one. -/
def due (before now : Option Json) (listeners : List StoreListener) : List (String × Json) :=
  if sameValue before now then [] else listeners.map fun l => (l.label, now.getD .null)

@[simp] theorem due_nil (before now : Option Json) : due before now [] = [] := by
  rw [due, List.map_nil, ite_self]

/-- To announce a key is to tell its listeners and no others. -/
theorem noticesOf_announcements (key k : String) (value : Json) :
    (announcements k value s).filterMap (StoreEvent.noticeOf key) =
      if k = key then (s.listenersOf key).map fun l => (l.label, value) else [] := by
  rw [announcements, List.filterMap_map]
  split
  · next h =>
    subst h
    simp [Function.comp_def, StoreEvent.noticeOf]
  · next h => simp [Function.comp_def, StoreEvent.noticeOf, h]

theorem noticesOf_difference (before : Option Json) (key k : String) :
    (difference before k s).filterMap (StoreEvent.noticeOf key) =
      if k = key then due before (s.get? key) (s.listenersOf key) else [] := by
  rw [difference, due]
  split
  · next h =>
    split
    · next hkey => subst hkey; rw [if_pos h]; rfl
    · rfl
  · next h =>
    rw [noticesOf_announcements]
    split
    · next hkey => subst hkey; rw [if_neg h]
    · rfl

/-- If every key is looked at once, its listeners are told once. -/
theorem noticesOf_flatMap_difference (before : String → Option Json) (key : String)
    {keys : List String} (hkeys : keys.Nodup) :
    (keys.flatMap fun k => difference (before k) k s).filterMap (StoreEvent.noticeOf key) =
      if key ∈ keys then due (before key) (s.get? key) (s.listenersOf key) else [] := by
  induction keys with
  | nil => rfl
  | cons k keys ih =>
    obtain ⟨hk, hkeys⟩ := List.nodup_cons.1 hkeys
    rw [List.flatMap_cons, List.filterMap_append, ih hkeys, noticesOf_difference]
    by_cases h : k = key
    · subst h
      rw [if_pos rfl, if_neg hk, if_pos List.mem_cons_self, List.append_nil]
    · have hne : key ≠ k := fun e => h e.symm
      simp only [if_neg h, List.nil_append, List.mem_cons, hne, false_or]

/-- The listeners of each key are told if its value has become another one. -/
theorem noticesOf_differences (hs : s.keysListenedTo.Nodup) (before : String → Option Json)
    (key : String) :
    (s.keysListenedTo.flatMap fun k => difference (before k) k s).filterMap
        (StoreEvent.noticeOf key) = due (before key) (s.get? key) (s.listenersOf key) := by
  rw [noticesOf_flatMap_difference before key hs]
  split
  · rfl
  · next h => rw [listenersOf_eq_nil h, due_nil]

end Store

namespace StoreWorld

def after (ops : List StoreOperation) (w : StoreWorld) : StoreWorld :=
  ops.foldl (fun w op => (step op w).2) w

/-- What the listeners of a key have been told so far. -/
def noticesOf (key : String) (w : StoreWorld) : List (String × Json) :=
  w.events.filterMap (StoreEvent.noticeOf key)

/-- From one state to the next the listeners of a key were told, each once and in their order, if
its value is another one, and nobody was otherwise. -/
def ToldOf (key : String) (w w' : StoreWorld) : Prop :=
  w'.noticesOf key = w.noticesOf key ++
    Store.due (w.store.get? key) (w'.store.get? key) (w.store.listenersOf key)

variable {w : StoreWorld}

/-- Listeners that come and go leave the store watched by whoever listens. -/
theorem watched_after {ops : List StoreOperation} (hops : ∀ op ∈ ops, op.Fits)
    (hw : w.store.Watched) : (w.after ops).store.Watched := by
  induction ops generalizing w with
  | nil => exact hw
  | cons op ops ih =>
    exact ih (fun o ho => hops o (List.mem_cons_of_mem op ho))
      (watched_step hw (hops op List.mem_cons_self))

/-- What loading tells: every difference, unless the file could not be used; then nothing has
changed and nobody is told. -/
structure LoadTells (w w' : StoreWorld) : Prop where
  used : w'.store.lastError = none → ∀ k, ToldOf k w w'
  refused : w'.store.lastError ≠ none → w'.store.data = w.store.data ∧ w'.events = w.events

/-- What setting a key tells and what it changes. The listeners of the key itself are told and
nobody else, also where the value of another key is another one now. -/
structure SetTells (key : String) (value : Json) (w w' : StoreWorld) : Prop where
  told : ∀ k, ToldOf k w w' ↔ k = key ∨ w.store.listenersOf k = [] ∨
    Store.sameValue (w.store.get? k) (w'.store.get? k) = true
  above : ∀ k r, Json.pathOf key = Json.pathOf k ++ r → r ≠ [] →
    Store.sameValue (w.store.get? k) (w'.store.get? k) = false
  below : ∀ k r, Json.pathOf k = Json.pathOf key ++ r →
    w'.store.get? k = Json.lookupPath r value
  apart : ∀ k, ¬ Json.pathOf k <+: Json.pathOf key → ¬ Json.pathOf key <+: Json.pathOf k →
    w'.store.get? k = w.store.get? k

/-! ## Loading -/

/-- Where the listeners stay, to tell of every difference is to tell everyone of what is another
value now. -/
theorem toldOf_of_differences {w' : StoreWorld} (hkeys : w.store.keysListenedTo.Nodup)
    (hsub : w'.store.subscriptions = w.store.subscriptions)
    (hevents : w'.events = w.events ++ w'.store.keysListenedTo.flatMap fun key =>
      w'.store.difference (w.store.get? key) key) (key : String) : ToldOf key w w' := by
  have hnodup : w'.store.keysListenedTo.Nodup := by
    rw [Store.keysListenedTo, hsub]
    exact hkeys
  rw [ToldOf, noticesOf, hevents, List.filterMap_append, Store.noticesOf_differences hnodup,
    Store.listenersOf_of_subscriptions hsub]
  rfl

theorem answer_load (hw : w.store.Watched) :
    (step .load w).1 = .ok (.value (.obj (step .load w).2.store.data)) := by
  obtain ⟨w', hstep, -⟩ := step_load_cases hw
  rw [hstep]

/-- Loading tells the listeners of every key whose value has changed. -/
theorem loadTells (hw : w.store.Watched) : LoadTells w (step .load w).2 := by
  obtain ⟨w', hstep, hsub, ⟨hreason, hdata, hevents⟩ | ⟨hnone, hevents⟩⟩ := step_load_cases hw
  · rw [hstep]
    exact ⟨fun hnone => absurd hnone hreason, fun _ => ⟨hdata, hevents⟩⟩
  · rw [hstep]
    exact ⟨fun _ => toldOf_of_differences hw.keys hsub hevents, fun hreason => absurd hnone hreason⟩

/-! ## Setting a key -/

theorem get?_eq_lookupPath (w : StoreWorld) (key : String) :
    w.store.get? key = Json.lookupPath (Json.pathOf key) (.obj w.store.data) :=
  Json.getKey?_eq_lookupPath key _

/-- Setting tells the listeners of the key that was set, if its value has changed. -/
theorem setTells (hw : w.store.Watched) {key : String} {value : Json} (hkey : key ≠ "")
    (h : Store.sameValue (w.store.get? key) (some value) = false) :
    SetTells key value w (step (.setValue key value) w).2 := by
  obtain ⟨w', hstep, hstore, hevents⟩ := step_setValue hw hkey h
  rw [hstep]
  have hpath := Json.pathOf_ne_nil hkey
  have hnow (k : String) : w'.store.get? k = Json.lookupPath (Json.pathOf k)
      (.obj (Json.putPath value (Json.pathOf key) w.store.data)) := by
    rw [get?_eq_lookupPath, hstore]
    rfl
  have hself : w'.store.get? key = some value := by
    have := Json.lookupPath_putPath_below value hpath [] w.store.data
    rwa [List.append_nil, ← hnow] at this
  constructor
  case told =>
    intro k
    show ToldOf k w w' ↔ _
    rw [ToldOf, noticesOf, hevents, List.filterMap_append, Store.noticesOf_announcements]
    by_cases hk : key = k
    · subst hk
      simp [Store.due, hself, h, noticesOf]
    · have hk' : k ≠ key := fun e => hk e.symm
      rw [if_neg hk, noticesOf, List.append_cancel_left_eq, Store.due]
      cases Store.sameValue (w.store.get? k) (w'.store.get? k) with
      | true => simp
      | false => simp [hk', List.nil_eq]
  case above =>
    intro k r hr hne
    show Store.sameValue _ (w'.store.get? k) = false
    rw [get?_eq_lookupPath, hr] at h
    rw [hnow, get?_eq_lookupPath, hr]
    exact Json.not_same_above _ hne h
  case below =>
    intro k r hr
    show w'.store.get? k = _
    rw [hnow, hr]
    exact Json.lookupPath_putPath_below value hpath r _
  case apart =>
    intro k habove hbelow
    show w'.store.get? k = _
    rw [hnow, get?_eq_lookupPath]
    exact Json.lookupPath_putPath_apart value habove hbelow _

/-- However a store came about, loading tells of every difference and setting a key tells the
listeners of that key alone, as long as the listeners look on. -/
theorem told_of_changes (disk : Disk) (defaults : Fields) (persistent : Bool)
    {ops : List StoreOperation} (hops : ∀ op ∈ ops, op.Fits) :
    let w := after ops (start disk defaults persistent)
    ((step .load w).1 = .ok (.value (.obj (step .load w).2.store.data)) ∧
      LoadTells w (step .load w).2) ∧
    ∀ key value,
      if Store.sameValue (w.store.get? key) (some value) then
        step (.setValue key value) w = (.ok (.value (.bool false)), w)
      else if key = "" then step (.setValue key value) w = (.error .emptyKey, w)
      else
        (step (.setValue key value) w).1 = .ok (.value (.bool true)) ∧
          SetTells key value w (step (.setValue key value) w).2 := by
  intro w
  have hw : w.store.Watched := watched_after hops (Store.watched_create defaults persistent)
  refine ⟨⟨answer_load hw, loadTells hw⟩, fun key value => ?_⟩
  split
  · next h => exact step_setValue_same h
  · next h =>
    have h := Bool.eq_false_iff.2 h
    split
    · next hkey =>
      subst hkey
      exact step_setValue_empty h
    · next hkey =>
      obtain ⟨w', hstep, -⟩ := step_setValue hw hkey h
      exact ⟨by rw [hstep], setTells hw hkey h⟩

/-- A listener of a key and one of the key above it: setting the lower key tells the first, and
loading, which brings the value back, tells both. -/
theorem told_of_changes_two_listeners :
    let ops : List StoreOperation :=
      [.listen "a" "l" [] none, .listen "a.b" "m" [.data] none, .setValue "a.b" (.int 2)]
    let w := after ops (start ⟨"", "", .nothing⟩ [("a", .obj [("b", .int 1)])] false)
    let w' := (step (.setValue "a.b" (.int 3)) w).2
    (∀ op ∈ ops, op.Fits) ∧ ToldOf "a.b" w w' ∧ ¬ ToldOf "a" w w' ∧
      ∀ k, ToldOf k w (step .load w).2 := by
  intro ops w w'
  have hops : ∀ op ∈ ops, op.Fits := by
    intro op hop
    obtain rfl | rfl | rfl : op = _ ∨ op = _ ∨ op = _ := by simpa [ops] using hop
    · exact ⟨by decide, rfl⟩
    · exact ⟨by decide, rfl⟩
    · trivial
  obtain ⟨⟨-, hload⟩, hset⟩ :=
    told_of_changes ⟨"", "", .nothing⟩ [("a", .obj [("b", .int 1)])] false hops
  have hother : Store.sameValue (w.store.get? "a.b") (some (.int 3)) = false := rfl
  have hset := hset "a.b" (.int 3)
  rw [if_neg (by simpa using hother), if_neg (by decide)] at hset
  refine ⟨hops, (hset.2.told "a.b").2 (.inl rfl), fun h => ?_, hload.used rfl⟩
  obtain h | h | h := (hset.2.told "a").1 h
  · exact absurd h (by decide)
  · cases h
  · have := hset.2.above "a" ["b"] (by decide) (by decide)
    exact Bool.noConfusion (this.symm.trans h)

/-- Loading and setting make the same change here, from one value of the lower key to the other, and
the listener of the upper key is told by loading only. -/
theorem listener_above_not_told_of_set :
    let w := after [.listen "a" "l" [] none]
      (start ⟨"", "", .nothing⟩ [("a", .obj [("b", .int 1)])] false)
    let w' := (step (.setValue "a.b" (.int 2)) w).2
    let w'' := (step .load w').2
    Store.sameValue (w.store.get? "a") (w'.store.get? "a") = false ∧ w'.noticesOf "a" = [] ∧
      ¬ ToldOf "a" w w' ∧ w''.noticesOf "a" = [("l", .obj [("b", .int 1)])] := by
  intro w w' w''
  refine ⟨rfl, rfl, fun h => ?_, rfl⟩
  have h : [] = [] ++ [("l", w'.store.get? "a" |>.getD .null)] := h
  cases h

end StoreWorld

end GhostText
