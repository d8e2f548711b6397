import GhostText.Proofs.Settings.Listening
import GhostText.Proofs.Settings.Refusal

/-!
# All of a file or nothing

Loading takes the object a file holds, or none where no file is looked for, and tells of what is
another value now. A file that is there and holds no object is left alone, and so are the settings:
only the reason is noted. A file that is there is not written when a store is opened.
-/

namespace GhostText

/-! ## There is always something to say -/

theorem append_ne_empty {s : String} (h : s ≠ "") (t : String) : s ++ t ≠ "" :=
  fun e => h (String.append_eq_empty_iff.1 e).1

theorem Text.Utf8.DecodeFault.message_ne_empty (f : DecodeFault) : f.message ≠ "" := by
  unfold message
  refine append_ne_empty (append_ne_empty (append_ne_empty ?_ _) _) _
  decide

theorem Json.ReadError.message_ne_empty (e : ReadError) : e.message ≠ "" := by
  cases e with
  | «at» problem line column offset =>
    unfold message
    iterate 7 refine append_ne_empty ?_ _
    cases problem <;> decide
  | tooManyDigits n =>
    unfold message tooManyDigitsMessage
    iterate 4 refine append_ne_empty ?_ _
    decide

namespace Disk

variable {disk : Disk} {fields : Fields}

def Offers (disk : Disk) (fields : Fields) : Prop :=
  ∃ t, disk.Holds t ∧ Json.read t = .ok (.obj fields)

/-- A file is read exactly if it offers an object. -/
theorem readObject_eq_ok_iff : disk.readObject = .ok fields ↔ disk.Offers fields := by
  constructor
  · intro h
    unfold readObject at h
    split at h
    · next bytes hplace =>
      split at h
      · cases h
      · next u hu =>
        split at h
        · cases h
        · next fs hread =>
          cases h
          exact ⟨_, ⟨bytes, u, hplace, hu, rfl⟩, hread⟩
        · cases h
    · cases h
    · cases h
  · rintro ⟨t, ⟨bytes, u, hplace, hu, rfl⟩, hread⟩
    simp [readObject, hplace, hu, hread]

/-- There is always a reason why a file is not read. -/
theorem reason_ne_empty {reason : String} (h : disk.readObject = .error reason) : reason ≠ "" := by
  unfold readObject at h
  split at h
  · split at h
    · next f _ =>
      obtain rfl := Except.error.inj h
      exact f.message_ne_empty
    · split at h
      · next e _ =>
        obtain rfl := Except.error.inj h
        exact e.message_ne_empty
      · cases h
      · obtain rfl := Except.error.inj h
        iterate 4 refine append_ne_empty ?_ _
        decide
  all_goals
    obtain rfl := Except.error.inj h
    exact append_ne_empty (append_ne_empty (by decide) _) _

end Disk

namespace Store

variable {α : Type} {s : Store α} {disk : Disk}

/-- The object that is taken: the one in the file, and one without members where the settings are
not kept in a file or there is none. -/
def Finds (s : Store α) (disk : Disk) (fields : Fields) : Prop :=
  if s.persistent = true ∧ disk.hasFile = true then disk.Offers fields else fields = []

/-- There is a file to be read, and no object in it. -/
def CannotUse (s : Store α) (disk : Disk) : Prop :=
  s.persistent = true ∧ disk.hasFile = true ∧ ∀ fields, ¬ disk.Offers fields

/-- The store with an object over the defaults. The settings are to be written if the file they are
kept in is not there. -/
def taking (s : Store α) (disk : Disk) (fields : Fields) : Store α :=
  { s with
    data := Json.mergeFields fields s.defaults
    dirty := s.persistent && !disk.hasFile
    lastError := none }

theorem readFrom_of_finds {fields : Fields} (h : s.Finds disk fields) :
    s.readFrom disk = .taken (s.taking disk fields) := by
  unfold Finds at h
  split at h
  · next hfile =>
    simp [readFrom, taking, hfile.1, hfile.2, Disk.readObject_eq_ok_iff.2 h]
  · next hfile =>
    subst h
    cases hp : s.persistent <;> cases hf : disk.hasFile <;> simp_all [readFrom, taking]

theorem readFrom_of_cannotUse (h : s.CannotUse disk) :
    ∃ reason, reason ≠ "" ∧ s.readFrom disk = .refused { s with lastError := some reason } := by
  obtain ⟨hp, hf, hnone⟩ := h
  cases hread : disk.readObject with
  | ok fields => exact absurd (Disk.readObject_eq_ok_iff.1 hread) (hnone fields)
  | error reason =>
    exact ⟨reason, Disk.reason_ne_empty hread, by simp [readFrom, hp, hf, hread]⟩

/-- A store either finds settings or has a reason to leave things alone. -/
theorem finds_or_cannotUse (s : Store α) (disk : Disk) :
    (∃ fields, s.Finds disk fields) ∨ s.CannotUse disk := by
  by_cases hfile : s.persistent = true ∧ disk.hasFile = true
  · by_cases hsome : ∃ fields, disk.Offers fields
    · obtain ⟨fields, h⟩ := hsome
      exact .inl ⟨fields, by rwa [Finds, if_pos hfile]⟩
    · exact .inr ⟨hfile.1, hfile.2, not_exists.1 hsome⟩
  · exact .inl ⟨[], by rw [Finds, if_neg hfile]⟩

/-- Opening a store leaves a file alone, whether or not it can be used. -/
theorem disk_openAt (h : disk.hasFile = true) : (openAt disk : Store α × _).2.1 = disk := by
  unfold openAt
  obtain ⟨fields, hfields⟩ | hcannot :=
    finds_or_cannotUse (create Config.default.fields true : Store α) disk
  · simp [readFrom_of_finds hfields, taking, h]
  · obtain ⟨reason, -, hread⟩ := readFrom_of_cannotUse hcannot
    rw [hread]

end Store

namespace StoreWorld

/-- Loading fails: there is a reason why, and nothing else has changed or been told. -/
def LoadFails (w : StoreWorld) : Prop :=
  ∃ reason, reason ≠ "" ∧ step .load w = (.ok (.value (.obj w.store.data)),
    { w with store := { w.store with lastError := some reason } })

/-- Loading succeeds with an object: its members over the defaults are the settings, they are to be
written exactly if they are kept in a file that is missing, and of every key that has another value
now the listeners are told, each once. -/
structure LoadTakes (fields : Fields) (w : StoreWorld) : Prop where
  answer : (step .load w).1 = .ok (.value (.obj (step .load w).2.store.data))
  lastError : (step .load w).2.store.lastError = none
  data : (step .load w).2.store.data = Json.mergeFields fields w.store.defaults
  dirty : (step .load w).2.store.dirty = true ↔
    w.store.persistent = true ∧ w.disk.hasFile = false
  told : ∀ key, ToldOf key w (step .load w).2

variable {w : StoreWorld}

/-- A file that cannot be used leaves the settings, and its reason is kept. -/
theorem loadFails (h : w.store.CannotUse w.disk) : LoadFails w := by
  obtain ⟨reason, hreason, hread⟩ := Store.readFrom_of_cannotUse h
  exact ⟨reason, hreason, step_load_refused hread⟩

/-- What a file offers is taken as a whole, and the listeners are told. -/
theorem loadTakes (hkeys : w.store.keysListenedTo.Nodup) {fields : Fields}
    (h : w.store.Finds w.disk fields)
    (hlisteners : ∀ key, ∀ l ∈ w.store.listenersOf key,
      LeavesBe (runScript depthLimit) (w.store.taking w.disk fields) l) : LoadTakes fields w := by
  obtain ⟨w', hstep, hstore, hevents⟩ :=
    step_load_taken (Store.readFrom_of_finds h) hlisteners
  constructor
  · rw [hstep, hstore]
  · rw [hstep, hstore]
    rfl
  · rw [hstep, hstore]
    rfl
  · rw [hstep, hstore, Store.taking, Bool.and_eq_true, Bool.not_eq_true']
  · rw [hstep]
    exact toldOf_of_differences hkeys (by rw [hstore]; rfl) (by rw [hstore]; exact hevents)

end StoreWorld

end GhostText
