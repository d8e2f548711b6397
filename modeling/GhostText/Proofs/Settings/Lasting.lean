import GhostText.Proofs.Json.Legible
import GhostText.Proofs.Settings.Filing

/-!
# Settings that last

Settings last if a file can hold them: they are plain, and none of the usual defaults is missing. So
it stays whatever the host does, and whatever its listeners do in turn, as long as the values that
are set are plain and the files that are loaded hold no binary fractions.
-/

namespace GhostText

namespace Act

variable {σ α β : Type} {P : σ → Prop}

/-- What holds of the state before the action holds after it, also where the action fails. -/
def Keeps (P : σ → Prop) (x : Act σ α) : Prop := ∀ s, P s → P (x.runFrom s).2

theorem keeps_pure (a : α) : Keeps P (pure a : Act σ α) := fun _ h => h

theorem keeps_throw (e : Fault) : Keeps P (throw e : Act σ α) := fun _ h => h

theorem keeps_modify {f : σ → σ} (h : ∀ s, P s → P (f s)) : Keeps P (modify f : Act σ PUnit) := h

/-- What two operations keep is kept by the one after the other. -/
theorem Keeps.bind {x : Act σ α} {f : α → Act σ β} (hx : Keeps P x) (hf : ∀ a, Keeps P (f a)) :
    Keeps P (x >>= f) := by
  intro s hs
  have hnext := hx s hs
  cases h : x.runFrom s with | mk r t =>
  rw [h] at hnext
  cases r with
  | ok a =>
    rw [runFrom_bind h]
    exact hf a t hnext
  | error e => rwa [runFrom_bind_error h]

theorem keeps_get {f : σ → Act σ α} (h : ∀ s, P s → P ((f s).runFrom s).2) :
    Keeps P (get >>= f) := by
  intro s hs
  rw [runFrom_get_bind]
  exact h s hs

/-- What each round of a loop keeps is kept by the loop. -/
theorem keeps_forIn {body : β → PUnit → Act σ (ForInStep PUnit)} {xs : List β}
    (h : ∀ x ∈ xs, Keeps P (body x ⟨⟩)) : Keeps P (forIn xs PUnit.unit body) := by
  induction xs with
  | nil => exact keeps_pure _
  | cons x xs ih =>
    obtain ⟨hx, hxs⟩ := List.forall_mem_cons.1 h
    rw [List.forIn_cons]
    refine hx.bind fun r => ?_
    cases r with
    | done b => exact keeps_pure b
    | yield b => exact ih hxs

end Act

/-! ## Members -/

namespace Json

open Fields

theorem isPlain_put {fields : Fields} (h : (obj fields).isPlain) {v : Json} (hv : v.isPlain)
    (k : String) : (obj (put k v fields)).isPlain := by
  obtain ⟨hkeys, hmembers⟩ := isPlain_obj.1 h
  exact isPlain_obj.2 ⟨nodup_keys_put hkeys k v, forall_mem_put hmembers hv k⟩

theorem isPlain_membersOf {place : Option Json} (h : ∀ v, place = some v → v.isPlain) :
    (obj (membersOf place)).isPlain := by
  cases place with
  | none => rfl
  | some v =>
    obtain ⟨fields, rfl⟩ | hv := v.isObject_cases
    · exact h _ rfl
    · cases v with
      | obj fields => cases hv
      | _ => rfl

/-- A plain value that is put under a path of plain members leaves them plain. -/
theorem isPlain_putPath {value : Json} (hvalue : value.isPlain) (p : List String)
    {fields : Fields} (h : (obj fields).isPlain) : (obj (putPath value p fields)).isPlain := by
  induction p generalizing fields with
  | nil => exact h
  | cons k p ih =>
    by_cases hp : p = []
    · subst hp
      exact isPlain_put h hvalue k
    · rw [putPath_cons value k hp]
      refine isPlain_put h (ih (isPlain_membersOf fun v hv => ?_)) k
      exact (isPlain_obj.1 h).2 _ (mem_of_lookup hv)

/-- Plain settings over plain defaults are plain. -/
theorem isPlain_mergeFields {data defaults : Fields} (h : (obj data).isPlain)
    (hd : ∀ f ∈ defaults, f.2.isPlain ∧ f.2.isObject = false) :
    (obj (mergeFields data defaults)).isPlain := by
  induction defaults generalizing data with
  | nil => rwa [mergeFields]
  | cons d defaults ih =>
    obtain ⟨⟨hplain, hobject⟩, hrest⟩ := List.forall_mem_cons.1 hd
    rw [mergeFields_cons]
    refine ih (isPlain_put h ?_ d.1) hrest
    cases hk : data.lookup d.1 with
    | none => exact hplain
    | some v =>
      rw [Option.map_some, Option.getD_some, mergeValue_of_not_isObject hobject]
      exact (isPlain_obj.1 h).2 _ (mem_of_lookup hk)

end Json

/-! ## What is loaded and what is set -/

/-- There are no binary fractions in what the file offers. -/
def Disk.IsExact (disk : Disk) : Prop :=
  ∀ fields, disk.Offers fields → (Json.obj fields).everywhere Json.isExact

theorem Disk.isExact_of_no_file {disk : Disk} (h : ∀ bytes, disk.place ≠ .file bytes) :
    disk.IsExact := by
  rintro fields ⟨t, ⟨bytes, u, hplace, -⟩, -⟩
  exact absurd hplace (h bytes)

/-- A file of plain settings is exact. -/
theorem Disk.isExact_of_writeText {disk disk' : Disk} {fields : Fields}
    (hf : (Json.obj fields).isPlain)
    (h : disk.writeText (Json.page (.obj fields)) = .ok disk') : disk'.IsExact := by
  intro gs hgs
  rw [hgs.unique (offers_of_writeText hf h), ← Json.sorted_obj]
  exact (Json.isPlain_iff.1 (Json.isPlain_sorted hf)).2

/-- The operation brings no value and no file, and reads none. -/
def StoreOperation.bringsNothing : StoreOperation → Bool
  | .load => false
  | .reopen => false
  | .setValue _ _ => false
  | .listen _ _ _ _ => false
  | .writeFile _ => false
  | _ => true

/-- Whatever the operation brings is plain: a value that is set, a file that is written, and what a
listener does when it is told. A file is loaded only if `exact` says that it may be. -/
inductive StoreOperation.Plain (exact : Prop) : StoreOperation → Prop where
  | load (h : exact) : Plain exact .load
  | reopen (h : exact) : Plain exact .reopen
  | setValue (key : String) {value : Json} (h : value.isPlain) : Plain exact (.setValue key value)
  | writeFile {bytes : List UInt8} (h : ∀ disk : Disk, disk.place = .file bytes → disk.IsExact) :
      Plain exact (.writeFile bytes)
  | listen (key label : String) {script : List StoreOperation}
      (h : ∀ op ∈ script, Plain exact op) (failure : Option Fault) :
      Plain exact (.listen key label script failure)
  | other {op : StoreOperation} (h : op.bringsNothing) : Plain exact op

namespace Store

/-- Settings that a file can hold, none of the usual ones missing, with listeners that set nothing
else. -/
structure Lasting (exact : Prop) (s : Store StoreListener) : Prop where
  defaults : s.defaults = Config.default.fields
  persistent : s.persistent = true
  plain : (Json.obj s.data).isPlain
  complete : ∀ key ∈ Config.default.fields.keys, key ∈ s.data.keys
  scripts : ∀ b ∈ s.subscriptions, ∀ l ∈ b.listeners, ∀ op ∈ l.2.script, op.Plain exact

variable {exact : Prop} {s s' : Store StoreListener} {disk disk' : Disk}

theorem plain_default : ∀ f ∈ Config.default.fields, f.2.isPlain ∧ f.2.isObject = false := by
  decide +kernel

/-- Whatever plain settings are merged with the defaults, they are plain and complete. -/
theorem lasting_of_merge {fields : Fields} (hs : s.defaults = Config.default.fields)
    (hp : s.persistent = true) (hf : (Json.obj fields).isPlain)
    (hdata : s.data = Json.mergeFields fields Config.default.fields)
    (hscripts : ∀ b ∈ s.subscriptions, ∀ l ∈ b.listeners, ∀ op ∈ l.2.script, op.Plain exact) :
    s.Lasting exact := by
  refine ⟨hs, hp, hdata ▸ Json.isPlain_mergeFields hf plain_default, fun key hkey => ?_, hscripts⟩
  have hkeys : Config.default.fields.keys.Nodup := by decide
  by_contra hmissing
  rw [hdata, ← Fields.lookup_eq_none_iff, Json.lookup_mergeFields hkeys,
    Option.merge_eq_none_iff, Fields.lookup_eq_none_iff, Fields.lookup_eq_none_iff] at hmissing
  exact hmissing.2 hkey

theorem lasting_create : (create Config.default.fields true).Lasting exact :=
  lasting_of_merge rfl rfl (show (Json.obj []).isPlain from rfl) rfl (by simp [create])

/-- What is loaded from a file that was saved is plain. -/
theorem isPlain_of_finds (hdisk : disk.IsExact) {fields : Fields} (h : s.Finds disk fields) :
    (Json.obj fields).isPlain := by
  unfold Finds at h
  split at h
  · obtain ⟨t, ht, hread⟩ := h
    exact Json.isPlain_of_read hread (hdisk fields ⟨t, ht, hread⟩)
  · subst h
    rfl

/-- Reading a file keeps settings lasting. -/
theorem Lasting.readFrom (hs : s.Lasting exact) (hdisk : disk.IsExact) :
    (∃ s', s.readFrom disk = .refused s' ∧ s'.Lasting exact) ∨
      ∃ s', s.readFrom disk = .taken s' ∧ s'.Lasting exact := by
  obtain ⟨fields, h⟩ | h := finds_or_cannotUse s disk
  · refine .inr ⟨_, readFrom_of_finds h, lasting_of_merge hs.defaults hs.persistent
      (isPlain_of_finds hdisk h) ?_ hs.scripts⟩
    rw [taking, hs.defaults]
  · obtain ⟨reason, -, hread⟩ := readFrom_of_cannotUse h
    exact .inl ⟨_, hread, { hs with }⟩

/-- Saving keeps settings that last, and leaves a file that holds them. -/
theorem Lasting.save (hs : s.Lasting exact) (h : s.save disk = .ok (disk', s')) :
    s'.Lasting exact ∧ disk'.IsExact := by
  obtain ⟨hwrite, rfl⟩ := save_eq_ok hs.persistent h
  exact ⟨{ hs with }, Disk.isExact_of_writeText hs.plain hwrite⟩

/-- A store that is opened at such a file has settings that last. -/
theorem lasting_openAt (hdisk : disk.IsExact) :
    (openAt disk : Store StoreListener × _).1.Lasting exact ∧
      (openAt disk : Store StoreListener × _).2.1.IsExact := by
  unfold openAt
  obtain ⟨s, hread, hs⟩ | ⟨s, hread, hs⟩ := lasting_create.readFrom hdisk
  · rw [hread]
    exact ⟨hs, hdisk⟩
  · rw [hread]
    dsimp only
    split
    · split
      · next hsave => exact hs.save hsave
      · exact ⟨hs, hdisk⟩
    · exact ⟨hs, hdisk⟩

theorem put?_cases (s : Store StoreListener) (key : String) (value : Json) :
    s.put? key value = .ok none ∨ (∃ f, s.put? key value = .error f) ∨
      s.put? key value = .ok (some (s.written key value)) := by
  cases hsame : sameValue (s.get? key) (some value) with
  | true =>
    left
    rw [put?, if_pos hsame]
  | false =>
    by_cases hkey : key = ""
    · subst hkey
      refine .inr (.inl ⟨.emptyKey, ?_⟩)
      rw [put?, if_neg (by simp [hsame])]
      rfl
    · exact .inr (.inr (put?_eq_written hkey hsame))

/-- A plain value that is set leaves settings that last. -/
theorem Lasting.written (hs : s.Lasting exact) {value : Json} (hv : value.isPlain) (key : String) :
    (s.written key value).Lasting exact := by
  refine { hs with plain := Json.isPlain_putPath hv _ hs.plain, complete := fun k hk => ?_ }
  rw [Store.written]
  cases hpath : Json.pathOf key with
  | nil => exact hs.complete k hk
  | cons j p =>
    have hput : ∃ v, Json.putPath value (j :: p) s.data = Fields.put j v s.data := by
      cases p with
      | nil => exact ⟨value, rfl⟩
      | cons l p => exact ⟨_, rfl⟩
    obtain ⟨v, hv⟩ := hput
    rw [hv, Fields.keys_put]
    split
    · exact hs.complete k hk
    · exact List.mem_append_left _ (hs.complete k hk)

theorem Lasting.listen (hs : s.Lasting exact) (key : String) {l : StoreListener}
    (hl : ∀ op ∈ l.script, op.Plain exact) : (s.listen key l).2.Lasting exact := by
  refine { hs with scripts := fun b hb x hx => ?_ }
  obtain rfl | ⟨c, hc, hx⟩ := mem_addListener hb hx
  · exact hl
  · exact hs.scripts c hc x hx

theorem Lasting.unlisten (hs : s.Lasting exact) (number : Nat) :
    (s.unlisten number).Lasting exact := by
  refine { hs with scripts := fun b hb x hx => ?_ }
  obtain ⟨c, hc, rfl⟩ := List.mem_map.1 hb
  exact hs.scripts c hc x (List.mem_filter.1 hx).1

/-- Whatever a listener does, it does with plain values. -/
theorem Lasting.script (hs : s.Lasting exact) {key : String} {l : StoreListener}
    (hl : l ∈ s.listenersOf key) : ∀ op ∈ l.script, op.Plain exact := by
  obtain ⟨b, hb, p, hp, rfl⟩ := mem_listenersOf hl
  exact hs.scripts b hb p hp

end Store

/-! ## Whatever is done -/

namespace StoreWorld

open Act

/-- The settings last, and a file that may be loaded does no harm to that. -/
structure Lasting (exact : Prop) (w : StoreWorld) : Prop where
  store : w.store.Lasting exact
  disk : exact → w.disk.IsExact

variable {exact : Prop} {run : Runner}

theorem keeps_save : Keeps (Lasting exact) (perform run .save) := by
  refine keeps_get fun w hw => ?_
  cases h : w.store.save w.disk with
  | error f => exact hw
  | ok p =>
    obtain ⟨hs, hdisk⟩ := hw.store.save h
    exact ⟨hs, fun _ => hdisk⟩

theorem keeps_reopen (hexact : exact) : Keeps (Lasting exact) (perform run .reopen) := by
  refine keeps_get fun w hw => ?_
  obtain ⟨hs, hdisk⟩ := Store.lasting_openAt (hw.disk hexact)
  cases h : (Store.openAt w.disk : Store StoreListener × _) with | mk s rest =>
  rw [h] at hs hdisk
  obtain ⟨disk, _ | text⟩ := rest <;> exact ⟨hs, fun _ => hdisk⟩

/-- What brings nothing tells nobody either. -/
theorem keeps_other {op : StoreOperation} (hop : op.bringsNothing) :
    Keeps (Lasting exact) (perform run op) := by
  cases op with
  | load | reopen | setValue | listen | writeFile => cases hop
  | save => exact keeps_save
  | unlisten label =>
    refine keeps_get fun w hw => ?_
    cases w.labels.lookup label with
    | none => exact hw
    | some number => exact ⟨hw.store.unlisten number, hw.disk⟩
  | config =>
    refine keeps_get fun w hw => ?_
    cases w.store.config <;> exact hw
  | deleteFile | makeDirectory | blockFolder =>
    exact fun w hw => ⟨hw.store, fun _ => Disk.isExact_of_no_file fun bytes h => nomatch h⟩
  | valueOf | data | showFile => exact fun w hw => hw

section Runs

variable (hrun : ∀ ops, (∀ op ∈ ops, op.Plain exact) → Keeps (Lasting exact) (run ops))
include hrun

/-- Whatever listeners do when they are told, the settings last. -/
theorem keeps_tell (key : String) (value : Json) :
    Keeps (Lasting exact) (tell run key value) := by
  refine keeps_get fun w hw => Keeps.bind (keeps_forIn fun l hl => ?_) (fun _ => keeps_pure _) w hw
  refine Keeps.bind (keeps_modify fun w hw => ⟨hw.store, hw.disk⟩) fun _ => ?_
  refine (hrun _ (hw.store.script hl)).bind fun _ => ?_
  cases l.failure with
  | none => exact keeps_pure _
  | some f => exact (keeps_throw f).bind fun _ => keeps_pure _

theorem keeps_tellDifferences (before : Fields) :
    Keeps (Lasting exact) (tellDifferences run before) := by
  refine keeps_get fun w hw => Keeps.bind (keeps_forIn fun key _ => ?_) (fun _ => keeps_pure _) w hw
  refine keeps_get fun w hw => ?_
  dsimp only
  split
  · exact (keeps_tell hrun _ _).bind (fun _ => keeps_pure _) w hw
  · exact keeps_pure _ w hw

theorem keeps_load (hexact : exact) : Keeps (Lasting exact) (perform run .load) := by
  refine keeps_get fun w hw => ?_
  obtain ⟨s, hread, hs⟩ | ⟨s, hread, hs⟩ := hw.store.readFrom (hw.disk hexact)
  · rw [hread]
    exact ⟨hs, hw.disk⟩
  · rw [hread]
    dsimp only
    rw [runFrom_set_bind]
    refine (keeps_tellDifferences hrun _).bind (fun _ => ?_) _ ⟨hs, hw.disk⟩
    exact keeps_get fun v hv => keeps_pure _ v hv

/-- Setting a plain value keeps settings that last, and so do the listeners that are told. -/
theorem keeps_setValue (key : String) {value : Json} (hvalue : value.isPlain) :
    Keeps (Lasting exact) (perform run (.setValue key value)) := by
  refine keeps_get fun w hw => ?_
  obtain h | ⟨f, h⟩ | h := Store.put?_cases w.store key value
  · rw [h]
    exact hw
  · rw [h]
    exact hw
  · rw [h]
    dsimp only
    rw [runFrom_set_bind]
    refine (keeps_tell hrun key value).bind (fun _ => keeps_pure _) _ ?_
    exact ⟨hw.store.written hvalue key, hw.disk⟩

/-- Whatever is done with plain values, the settings last. -/
theorem keeps_perform {op : StoreOperation} (hop : op.Plain exact) :
    Keeps (Lasting exact) (perform run op) := by
  cases hop with
  | load hexact => exact keeps_load hrun hexact
  | reopen hexact => exact keeps_reopen hexact
  | setValue key hvalue => exact keeps_setValue hrun key hvalue
  | writeFile hbytes => exact fun w hw => ⟨hw.store, fun _ => hbytes _ rfl⟩
  | listen key label hscript failure =>
    exact fun w hw => ⟨hw.store.listen key hscript, hw.disk⟩
  | other hnothing => exact keeps_other hnothing

end Runs

/-- Scripts keep settings that last, by induction over how deeply they make one another run. -/
theorem keeps_runScript (depth : Nat) {ops : List StoreOperation}
    (hops : ∀ op ∈ ops, op.Plain exact) : Keeps (Lasting exact) (runScript depth ops) := by
  induction depth generalizing ops with
  | zero => exact keeps_throw _
  | succ depth ih =>
    rw [runScript]
    induction ops with
    | nil => exact keeps_pure _
    | cons op ops ihops =>
      obtain ⟨hop, hrest⟩ := List.forall_mem_cons.1 hops
      have hhead : Keeps (Lasting exact) (discard (perform (runScript depth) op)) :=
        (keeps_perform (fun ops h => ih h) hop).bind fun _ => keeps_pure _
      exact hhead.bind fun _ => ihops hrest

/-- Whatever plain operations the host performs, its settings last. -/
theorem lasting_after {ops : List StoreOperation} (hops : ∀ op ∈ ops, op.Plain exact)
    {w : StoreWorld} (hw : w.Lasting exact) : (w.after ops).Lasting exact := by
  induction ops generalizing w with
  | nil => exact hw
  | cons op ops ih =>
    obtain ⟨hop, hrest⟩ := List.forall_mem_cons.1 hops
    exact ih hrest (keeps_perform (fun ops h => keeps_runScript depthLimit h) hop w hw)

end StoreWorld

end GhostText
