import GhostText.Proofs.Json.Legible
import GhostText.Proofs.Settings.Values
import GhostText.Settings.Store

/-!
# Settings that are refused

Whatever value is read as settings, a configuration comes of it, unless a number that has to be
brought into bounds is infinite. So it is for a value by itself and for a store that takes it from
its file; a file that holds no object leaves a store with the configuration it had.
-/

namespace GhostText

/-- There is a result, except where `p` holds; there an infinite number stands in the way. -/
structure RefusedIff {α : Type} (x : Except Fault α) (p : Prop) : Prop where
  refused : p → x = .error .infinityAsInteger
  answered : ¬ p → ∃ a, x = .ok a

/-- What is refused before it is turned into something else is refused for the same reason. -/
theorem RefusedIff.map {α β : Type} {x : Except Fault α} {p : Prop} (h : RefusedIff x p)
    (f : α → β) : RefusedIff (x.map f) p := by
  constructor
  · intro hp
    rw [h.refused hp]
    rfl
  · intro hp
    obtain ⟨a, ha⟩ := h.answered hp
    exact ⟨f a, by rw [ha]; rfl⟩

namespace Config

def Boundless (raw : Json) : Prop :=
  ∃ key ∈ numberKeys, ∃ v, raw.field? key = some v ∧ v.IsInfinite

/-- Every number has a default that is a whole number. -/
theorem lookup_default_number {key : String} (h : key ∈ numberKeys) :
    ∃ n, default.fields.lookup key = some (.int n) := by
  simp only [numberKeys, List.mem_cons, List.not_mem_nil, or_false] at h
  rcases h with rfl | rfl | rfl
  · exact ⟨500, rfl⟩
  · exact ⟨0, rfl⟩
  · exact ⟨4, rfl⟩

/-- What the members of a value are found to be is what they are over the defaults. -/
theorem isInfinite_or_iff {o : Option Json} {key : String} (h : key ∈ numberKeys) :
    ((o.or (default.fields.lookup key)).getD .null).IsInfinite ↔
      ∃ v, o = some v ∧ v.IsInfinite := by
  cases o with
  | none =>
    obtain ⟨n, hn⟩ := lookup_default_number h
    simp [hn, Json.IsInfinite]
  | some v => simp

/-- A configuration is refused if a number in it has no bounds, and for nothing else. -/
theorem ofJson_refusedIff {raw : Json} (h : raw.fields.keys.Nodup) :
    RefusedIff (ofJson raw) (Boundless raw) := by
  have hiff : (∃ key ∈ numberKeys, (given raw key).IsInfinite) ↔ Boundless raw := by
    refine exists_congr fun key => and_congr_right fun hk => ?_
    rw [given_eq h, isInfinite_or_iff hk]
  constructor
  · intro hb
    exact ofJson_eq_error_iff.2 ⟨hiff.2 hb, rfl⟩
  · intro hb
    cases hc : ofJson raw with
    | error f => exact absurd (hiff.1 (ofJson_eq_error_iff.1 hc).1) hb
    | ok c => exact ⟨c, rfl⟩

/-- Defaults that are put in for what is missing change nothing here. -/
theorem boundless_mergeFields (fields : Fields) :
    Boundless (.obj (Json.mergeFields fields default.fields)) ↔ Boundless (.obj fields) := by
  have hdistinct : default.fields.keys.Nodup := by decide
  refine exists_congr fun key => and_congr_right fun hk => ?_
  have hl := Json.lookup_mergeFields hdistinct fields key
  obtain ⟨n, hn⟩ := lookup_default_number hk
  simp only [Json.field?, Json.fields, hl, hn]
  cases fields.lookup key with
  | none => simp [Json.IsInfinite]
  | some v =>
    have hv : v.mergeValue (.int n) = v := Json.mergeValue_of_not_isObject rfl v
    simp [hv]

end Config

/-- What stands at the place of the file is a text, the one given once every line break is a line
feed. -/
def Disk.Holds (disk : Disk) (t : Text) : Prop := ∃ bytes u,
  disk.place = .file bytes ∧ Text.Utf8.decodeStrict bytes = .ok u ∧ Disk.plainBreaks u = t

namespace Store

variable {α : Type} {s : Store α} {disk : Disk} {t : Text}

/-- A store that takes an object has a configuration unless one of its numbers is infinite. -/
theorem config_refusedIff {fields : Fields} (hd : s.defaults = Config.default.fields)
    (hn : fields.keys.Nodup) (hdata : s.data = Json.mergeFields fields s.defaults) :
    RefusedIff s.config (Config.Boundless (.obj fields)) := by
  have hmerged : RefusedIff (Config.ofJson (.obj (Json.mergeFields fields Config.default.fields)))
      (Config.Boundless (.obj (Json.mergeFields fields Config.default.fields))) :=
    Config.ofJson_refusedIff (Json.nodup_keys_mergeFields hn _)
  rw [config, hdata, hd]
  rwa [Config.boundless_mergeFields] at hmerged

theorem readFrom_of_holds (hp : s.persistent = true) (hdisk : disk.Holds t) {fields : Fields}
    (h : Json.read t = .ok (.obj fields)) : s.readFrom disk = .taken { s with
      data := Json.mergeFields fields s.defaults, dirty := false, lastError := none } := by
  obtain ⟨bytes, u, hfile, hu, rfl⟩ := hdisk
  simp [readFrom, hp, Disk.hasFile, Disk.readObject, hfile, hu, h]

/-- A value that is no object leaves the settings as they are. -/
theorem readFrom_of_not_isObject (hp : s.persistent = true) (hdisk : disk.Holds t) {raw : Json}
    (h : Json.read t = .ok raw) (hraw : raw.isObject = false) :
    ∃ reason, s.readFrom disk = .refused { s with lastError := some reason } := by
  obtain ⟨bytes, u, hfile, hu, rfl⟩ := hdisk
  cases raw with
  | obj fields => cases hraw
  | _ => exact ⟨_, by simp [readFrom, hp, Disk.hasFile, Disk.readObject, hfile, hu, h]; rfl⟩

end Store

/-- Of every value that is read settings are made, and a configuration, unless a number in it that
has to be brought into bounds is infinite. A store with the usual defaults whose file holds the
value has a configuration under the same condition, and keeps the one it had if the value is no
object. -/
theorem Config.refused_iff_boundless {t : Text} {raw : Json} (h : Json.read t = .ok raw) :
    RefusedIff (normalize raw) (Boundless raw) ∧ RefusedIff (ofJson raw) (Boundless raw) ∧
      ∀ {α : Type} (s : Store α) (disk : Disk), s.persistent = true →
        s.defaults = default.fields → disk.Holds t →
          (raw.isObject = true → ∃ s', s.readFrom disk = .taken s' ∧
            RefusedIff s'.config (Boundless raw)) ∧
          (raw.isObject = false → ∃ s', s.readFrom disk = .refused s' ∧ s'.config = s.config) := by
  have hn : raw.fields.keys.Nodup := Json.nodup_keys_read h
  have hc : RefusedIff (ofJson raw) (Boundless raw) := ofJson_refusedIff hn
  refine ⟨hc.map toJson, hc, ?_⟩
  intro α s disk hp hd hdisk
  constructor
  · intro hraw
    obtain ⟨fields, rfl⟩ : ∃ fields, raw = .obj fields := by
      cases raw with
      | obj fields => exact ⟨fields, rfl⟩
      | _ => cases hraw
    exact ⟨_, Store.readFrom_of_holds hp hdisk h, Store.config_refusedIff hd hn rfl⟩
  · intro hraw
    obtain ⟨reason, hr⟩ := Store.readFrom_of_not_isObject hp hdisk h hraw
    exact ⟨_, hr, rfl⟩

/-- Not a number is a number with a default to give way to. -/
theorem Config.refused_iff_boundless_not_a_number :
    let text := '{' :: (Json.writeText false "tab_size" ++ ':' :: ("NaN".toList ++ ['}']))
    let raw : Json := .obj [("tab_size", .float .nan)]
    Json.read text = .ok raw ∧ ¬ Boundless raw ∧
      (∃ n, normalize raw = .ok n) ∧ (∃ c, ofJson raw = .ok c) ∧
      ∃ s' c, (Store.create default.fields true : Store Unit).readFrom
          ⟨"/s.json", "/", .file (Text.Utf8.encode text)⟩ = .taken s' ∧ s'.config = .ok c := by
  intro text raw
  have hread : Json.read text = .ok raw := Json.read_member (by simp [Json.wordValues]) "tab_size"
  have hb : ¬ Boundless raw := by
    rintro ⟨key, hkey, v, hv, negative, rfl⟩
    simp only [numberKeys, List.mem_cons, List.not_mem_nil, or_false] at hkey
    rcases hkey with rfl | rfl | rfl <;> cases hv
  have hdisk : Disk.Holds ⟨"/s.json", "/", .file (Text.Utf8.encode text)⟩ text :=
    ⟨_, text, rfl, eq_ok_of_toOption (by decide +kernel), by decide +kernel⟩
  obtain ⟨hnormal, hconfig, hstore⟩ := refused_iff_boundless hread
  obtain ⟨s', hs, hc⟩ :=
    (hstore (Store.create default.fields true : Store Unit) _ rfl rfl hdisk).1 rfl
  obtain ⟨c, hc⟩ := hc.answered hb
  exact ⟨hread, hb, hnormal.answered hb, hconfig.answered hb, s', c, hs, hc⟩

/-- An infinite number is read, and then neither settings nor a configuration come of it. -/
theorem Config.infinite_debounce_refused :
    let text :=
      '{' :: (Json.writeText false "debounce_ms" ++ ':' :: ("Infinity".toList ++ ['}']))
    let raw : Json := .obj [("debounce_ms", .float (.infinity false))]
    Json.read text = .ok raw ∧ normalize raw = .error .infinityAsInteger ∧
      ofJson raw = .error .infinityAsInteger ∧
      ∃ s', (Store.create default.fields true : Store Unit).readFrom
          ⟨"/s.json", "/", .file (Text.Utf8.encode text)⟩ = .taken s' ∧
        s'.config = .error .infinityAsInteger := by
  intro text raw
  have hread : Json.read text = .ok raw :=
    Json.read_member (by simp [Json.wordValues]) "debounce_ms"
  have hdisk : Disk.Holds ⟨"/s.json", "/", .file (Text.Utf8.encode text)⟩ text :=
    ⟨_, text, rfl, eq_ok_of_toOption (by decide +kernel), by decide +kernel⟩
  exact ⟨hread, rfl, rfl, _, Store.readFrom_of_holds rfl hdisk hread, rfl⟩

end GhostText
