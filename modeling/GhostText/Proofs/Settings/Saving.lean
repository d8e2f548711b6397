import GhostText.Proofs.Settings.Lasting
import GhostText.Proofs.Settings.Merging
import GhostText.Proofs.Settings.Ordering

/-!
# Settings that are saved and loaded again

A new store on the file of another has the same settings, their keys in order, and nothing to write
that is not written already. What is shown as a text is shown with its keys in order then; the rest
of the configuration is the same.
-/

namespace GhostText

namespace Store

variable {exact : Prop} {s : Store StoreListener}

/-- Lasting settings leave nothing of the defaults, also with their keys in order. -/
theorem Lasting.mergeFields_sorted (hs : s.Lasting exact) :
    Json.mergeFields s.data.sorted Config.default.fields = s.data.sorted := by
  refine Json.mergeFields_eq_self fun f hf => ?_
  have hkeys := (Json.isPlain_obj.1 hs.plain).1
  obtain ⟨v, hv⟩ := Fields.exists_lookup (hs.complete f.1 (List.mem_map_of_mem hf))
  refine ⟨v.sorted, ?_, Json.mergeValue_of_not_isObject (plain_default f hf).2 _⟩
  rw [Fields.lookup_sorted hkeys, hv, Option.map_some]

def renewed (s : Store StoreListener) : Store StoreListener :=
  { create Config.default.fields true with data := s.data.sorted }

/-- This is what a new store comes to on the file that lasting settings were saved to. -/
theorem Lasting.readFrom_saved (hs : s.Lasting exact) {disk disk' : Disk}
    (h : disk.writeText (Json.page (.obj s.data)) = .ok disk') :
    (create Config.default.fields true).readFrom disk' = .taken s.renewed := by
  have hfinds : (create Config.default.fields true : Store StoreListener).Finds disk'
      s.data.sorted := by
    rw [Finds, if_pos ⟨rfl, Disk.hasFile_of_writeText h⟩]
    exact Disk.offers_of_writeText hs.plain h
  rw [readFrom_of_finds hfinds, taking, Disk.hasFile_of_writeText h]
  exact congrArg (fun data => Loaded.taken { create Config.default.fields true with data := data })
    hs.mergeFields_sorted

/-- The second store has the settings of the first, with their keys in order, and but for that order
the same configuration. -/
structure SameSettings (s t : Store StoreListener) : Prop where
  same : (Json.obj s.data).same (.obj t.data)
  ordered : t.data = s.data.sorted
  config : ∃ c d, s.config = .ok c ∧ t.config = .ok d ∧ Config.SameButOrder s.data c d

/-- A store that is opened again has the same settings. -/
theorem Lasting.sameSettings (hs : s.Lasting exact) : SameSettings s s.renewed := by
  have hkeys := (Json.isPlain_obj.1 hs.plain).1
  have hperm := Fields.perm_keys_sorted s.data
  have hsorted : (Json.obj s.data.sorted).isPlain :=
    Json.sorted_obj s.data ▸ Json.isPlain_sorted hs.plain
  have hschema : ∀ r ∈ Config.schema, r.1 ∈ Config.default.fields.keys := by decide
  obtain ⟨c, hc⟩ := Config.exists_ofJson hs.plain hs.complete
  obtain ⟨d, hd⟩ := Config.exists_ofJson hsorted fun key h => hperm.mem_iff.2 (hs.complete key h)
  refine ⟨?_, rfl, c, d, hc, hd, ?_⟩
  · rw [renewed, ← Json.sorted_obj]
    exact Json.same_sorted hs.plain
  · exact Config.sameButOrder hkeys (fun r hr => hs.complete r.1 (hschema r hr)) hc hd

end Store

namespace StoreWorld

variable {exact : Prop} {w : StoreWorld}

theorem step_save_ok {disk : Disk} {s : Store StoreListener}
    (h : w.store.save w.disk = .ok (disk, s)) :
    step .save w = (.ok (.fileText disk.text?), { w with store := s, disk := disk }) := by
  rw [step, perform, Act.runFrom_get_bind, h]
  rfl

/-- Where nothing can be written the store stays as it is. -/
theorem step_save_error {f : Fault} (h : w.store.save w.disk = .error f) :
    step .save w = (.error f, w) := by
  rw [step, perform, Act.runFrom_get_bind, h]
  rfl

/-- Nothing is in the way of a file where there is nothing. -/
theorem exists_answer_save (hp : w.store.persistent = true) (h : w.disk.place = .nothing) :
    ∃ answer, (step .save w).1 = .ok answer := by
  cases hsave : w.store.save w.disk with
  | ok p => exact ⟨_, congrArg Prod.fst (step_save_ok hsave)⟩
  | error f =>
    rw [Store.save, if_neg (by simp [hp]), Disk.writeText, h] at hsave
    cases hsave

/-- Where nobody listens, loading does nothing but load. -/
theorem step_load_unheard {s : Store StoreListener} (h : w.store.readFrom w.disk = .taken s)
    (hs : s.subscriptions = []) :
    step .load w = (.ok (.value (.obj s.data)), { w with store := s }) := by
  have htell : (tellDifferences (runScript depthLimit) w.store.data).runFrom
      { w with store := s } = (.ok ⟨⟩, { w with store := s }) := by
    rw [tellDifferences, Act.runFrom_get_bind, Store.keysListenedTo, hs]
    rfl
  rw [step, perform, Act.runFrom_get_bind, h]
  dsimp only
  rw [Act.runFrom_set_bind, Act.runFrom_bind htell]
  rfl

def anew (w : StoreWorld) : StoreWorld := start w.disk Config.default.fields true

/-- A new store on the same file, after the settings have been saved to it and loaded from it. -/
def reloaded (w : StoreWorld) : StoreWorld := (step .load (step .save w).2.anew).2

/-- Once saved, the settings are loaded in a new store, and saved there they make the same file. -/
structure Survives (w : StoreWorld) (answer : StoreReply) : Prop where
  loaded : (step .load (step .save w).2.anew).1 = .ok (.value (.obj w.reloaded.store.data))
  settings : Store.SameSettings w.store w.reloaded.store
  lastError : w.reloaded.store.lastError = none
  dirty : w.reloaded.store.dirty = false
  again : (step .save w.reloaded).1 = .ok answer
  file : (step .save w.reloaded).2.disk = (step .save w).2.disk

/-- What saving and loading in a new store comes to, and saving there again. -/
theorem saved_and_loaded (hw : w.store.Lasting exact) {answer : StoreReply}
    (h : (step .save w).1 = .ok answer) :
    let saved := (step .save w).2
    let loaded := { saved.anew with store := w.store.renewed }
    step .load saved.anew = (.ok (.value (.obj w.store.renewed.data)), loaded) ∧
      step .save loaded = (.ok answer, loaded) := by
  cases hsave : w.store.save w.disk with
  | error f =>
    rw [step_save_error hsave] at h
    cases h
  | ok p =>
    obtain ⟨disk, t⟩ := p
    rw [step_save_ok hsave] at h ⊢
    obtain rfl := Except.ok.inj h
    obtain ⟨hwrite, -⟩ := Store.save_eq_ok hw.persistent hsave
    have hpage : Json.page (.obj w.store.renewed.data) = Json.page (.obj w.store.data) := by
      rw [Store.renewed, Json.page, Json.page, ← Json.sorted_obj, Json.sorted_sorted]
    have hagain : w.store.renewed.save disk = .ok (disk, w.store.renewed) := by
      rw [Store.save, if_neg (by simp [Store.renewed, Store.create]), hpage,
        Disk.writeText_again hwrite]
      rfl
    exact ⟨step_load_unheard (hw.readFrom_saved hwrite) rfl, step_save_ok hagain⟩

/-- Settings that last survive being saved and loaded. -/
theorem survives (hw : w.store.Lasting exact) {answer : StoreReply}
    (h : (step .save w).1 = .ok answer) : w.Survives answer := by
  obtain ⟨hload, hsave⟩ := saved_and_loaded hw h
  have hreloaded : w.reloaded = { (step .save w).2.anew with store := w.store.renewed } :=
    congrArg Prod.snd hload
  rw [← hreloaded] at hload hsave
  have hstore : w.reloaded.store = w.store.renewed := by rw [hreloaded]
  have hdisk : w.reloaded.disk = (step .save w).2.disk := by
    rw [hreloaded]
    rfl
  refine ⟨?_, hstore ▸ hw.sameSettings, hstore ▸ rfl, hstore ▸ rfl, ?_, ?_⟩
  · rw [hload, hstore]
  · rw [hsave]
  · rw [hsave, hdisk]

/-- However plain settings came about, they survive being saved and loaded in a new store on the
same file, and saved there they make the same file. -/
theorem settings_survive {disk : Disk} {ops : List StoreOperation}
    (hops : ∀ op ∈ ops, op.Plain disk.IsExact) {answer : StoreReply} :
    let w := after ops (start disk Config.default.fields true)
    (step .save w).1 = .ok answer → w.Survives answer := by
  intro w
  have hw : w.Lasting disk.IsExact := lasting_after hops ⟨Store.lasting_create, id⟩
  exact survives hw.store

/-- A number has made way for an object that holds other values, its keys not in order, and another
number is still found in a text. -/
theorem settings_survive_nested :
    let ops : List StoreOperation := [.load,
      .setValue "debounce_ms.z" (.arr [.int (-1), .bool true, .null]),
      .setValue "debounce_ms.a" (.obj [("é", .str "\n"), ("b", .arr [])]),
      .setValue "tab_size" (.str " 8 ")]
    let disk : Disk := ⟨"/s.json", "/", .nothing⟩
    let w := after ops (start disk Config.default.fields true)
    (∀ op ∈ ops, op.Plain disk.IsExact) ∧
      (∃ answer, (step .save w).1 = .ok answer ∧ w.Survives answer) ∧
      ∃ d, w.reloaded.store.config = .ok d ∧ d.debounceMs = 500 ∧ d.tabSize = 8 := by
  intro ops disk w
  have hdisk : disk.IsExact := Disk.isExact_of_no_file fun bytes h => nomatch h
  have hops : ∀ op ∈ ops, op.Plain disk.IsExact := by
    refine List.forall_mem_cons.2 ⟨.load hdisk, List.forall_mem_cons.2 ⟨.setValue _ ?_,
      List.forall_mem_cons.2 ⟨.setValue _ ?_, List.forall_mem_singleton.2 (.setValue _ ?_)⟩⟩⟩ <;>
    decide +kernel
  have hconfig : w.store.config.toOption.map (fun c => (c.debounceMs, c.tabSize)) =
      some (500, 8) := by
    decide +kernel
  obtain ⟨answer, hanswer⟩ : ∃ answer, (step .save w).1 = .ok answer :=
    exists_answer_save (by decide +kernel) (by decide +kernel)
  have hsurvives : w.Survives answer := settings_survive hops hanswer
  clear_value w
  obtain ⟨c, d, hc, hd, hsame⟩ := hsurvives.settings.config
  rw [hc] at hconfig
  obtain ⟨hdebounce, htab⟩ := Prod.mk.inj (Option.some.inj hconfig)
  -- The rule of a number shows no order, whatever stands in its place.
  have hnumber : ∀ key low high fallback, (key, Rule.number low high fallback) ∈ Config.schema →
      d.fields.lookup key = c.fields.lookup key := by
    intro key low high fallback hr
    refine hsame.fields _ hr ?_
    rintro ⟨v, -, hshows, -⟩
    cases hshows
  have hdebounce' := hnumber "debounce_ms" 0 10000 500 (by simp [Config.schema, Config.default])
  have htab' := hnumber "tab_size" 1 16 4 (by simp [Config.schema, Config.default])
  refine ⟨hops, ⟨answer, hanswer, hsurvives⟩, d, hd, ?_, ?_⟩
  · exact (Json.int.inj (Option.some.inj hdebounce')).trans hdebounce
  · exact (Json.int.inj (Option.some.inj htab')).trans htab

/-- A text setting that was set to an object shows the members in the order in which they were
given, and once it was saved and loaded in the order of their keys. -/
theorem config_of_unordered_object :
    let w := after [.setValue "accept_key" (.obj [("b", .int 1), ("a", .int 2)])]
      (start ⟨"/s.json", "/", .nothing⟩ Config.default.fields true)
    (∃ answer, (step .save w).1 = .ok answer) ∧
      ∃ c d, w.store.config = .ok c ∧ w.reloaded.store.config = .ok d ∧
        c.acceptKey = "\x7b'b': 1, 'a': 2\x7d" ∧ d.acceptKey = "\x7b'a': 2, 'b': 1\x7d" ∧
        c ≠ d := by
  intro w
  have hw : w.Lasting False :=
    lasting_after (List.forall_mem_singleton.2 (.setValue _ (by decide +kernel)))
      ⟨Store.lasting_create, False.elim⟩
  have hset : w.store.data.lookup "accept_key" = some (.obj [("b", .int 1), ("a", .int 2)]) := rfl
  obtain ⟨answer, hanswer⟩ : ∃ answer, (step .save w).1 = .ok answer :=
    exists_answer_save (by decide +kernel) (by decide +kernel)
  obtain ⟨-, hordered, c, d, hc, hd, -⟩ := (survives hw.store hanswer).settings
  have hkeys : w.store.data.keys.Nodup := (Json.isPlain_obj.1 hw.store.plain).1
  clear_value w
  have hkey : ∀ {data : Fields} {v : Json} {c : Config}, data.keys.Nodup →
      data.lookup "accept_key" = some v → Config.ofJson (.obj data) = .ok c →
      c.acceptKey = Config.textOf Config.default.acceptKey v := by
    intro data v c hdata hv h
    obtain ⟨_, _, _, -, -, -, rfl⟩ := Config.ofJson_eq_ok_iff.1 h
    rw [Config.assemble, Config.given_of_lookup hdata hv]
  have horder : Json.sorted (.obj [("b", .int 1), ("a", .int 2)]) =
      .obj [("a", .int 2), ("b", .int 1)] := by
    refine (Json.sorted_obj _).trans (congrArg Json.obj ?_)
    exact Fields.sorted_eq_of_perm (.swap _ _ _) (by decide) (by decide)
  have hsorted : w.reloaded.store.data.lookup "accept_key" =
      some (.obj [("a", .int 2), ("b", .int 1)]) := by
    rw [hordered, Fields.lookup_sorted hkeys, hset, Option.map_some, horder]
  have hkeys' : w.reloaded.store.data.keys.Nodup := by
    rw [hordered]
    exact (Fields.perm_keys_sorted _).nodup_iff.2 hkeys
  have hbefore : c.acceptKey = "\x7b'b': 1, 'a': 2\x7d" :=
    (hkey hkeys hset hc).trans (by decide +kernel)
  have hafter : d.acceptKey = "\x7b'a': 2, 'b': 1\x7d" :=
    (hkey hkeys' hsorted hd).trans (by decide +kernel)
  refine ⟨⟨answer, hanswer⟩, c, d, hc, hd, hbefore, hafter, ?_⟩
  rintro rfl
  exact absurd (hbefore.symm.trans hafter) (by decide)

end StoreWorld

end GhostText
