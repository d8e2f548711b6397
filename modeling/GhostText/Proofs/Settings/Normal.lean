import GhostText.Proofs.Settings.Rules

/-!
# Normal settings

Settings are normal if they have the keys of the schema and under each of them what its rule allows.
Whatever value they are made of, settings are made rule by rule. So they are normal, and the normal
settings are those that normalizing leaves as they are.
-/

namespace GhostText

/-- A list is gone through without a fault if nothing in it makes one. -/
theorem mapM_eq_ok_iff {α β : Type} {f : α → Except Fault β} {xs : List α} {ys : List β} :
    xs.mapM f = .ok ys ↔ List.Forall₂ (fun x y => f x = .ok y) xs ys := by
  induction xs generalizing ys with
  | nil => simp [pure, Except.pure, eq_comm]
  | cons x xs ih =>
    rw [List.mapM_cons, List.forall₂_cons_left_iff]
    constructor
    · intro h
      obtain ⟨y, hy, h⟩ := exists_of_bind_eq_ok h
      obtain ⟨zs, hzs, h⟩ := exists_of_bind_eq_ok h
      exact ⟨y, zs, hy, ih.1 hzs, (Except.ok.inj h).symm⟩
    · rintro ⟨y, zs, hy, hzs, rfl⟩
      rw [hy, ih.2 hzs]
      rfl

theorem Verbosity.name_inj {v w : Verbosity} : v.name = w.name ↔ v = w := by
  cases v <;> cases w <;> decide

theorem Trace.name_inj {v w : Trace} : v.name = w.name ↔ v = w := by
  cases v <;> cases w <;> decide

theorem TransportMode.name_inj {v w : TransportMode} : v.name = w.name ↔ v = w := by
  cases v <;> cases w <;> decide

namespace Config

def schema : List (String × Rule) :=
  [("disable_completions", .switch),
    ("use_inline_completion_text_in_source", .switch),
    ("debounce_ms", .number 0 10000 default.debounceMs),
    ("accept_key", .text default.acceptKey),
    ("logging", .word ["off", "error", "debug"] default.logging.name),
    ("trace", .word ["off", "messages", "verbose"] default.trace.name),
    ("transport", .word ["pipe", "relay"] default.transport.name),
    ("node_path", .text default.nodePath),
    ("server_path", .path),
    ("server_args", .arguments),
    ("relay_host", .text default.relayHost),
    ("relay_port", .number 0 65535 default.relayPort),
    ("tab_size", .number 1 16 default.tabSize),
    ("insert_spaces", .switch),
    ("use_crlf", .switch),
    ("editor_name", .text default.editorName),
    ("editor_version", .text default.editorVersion),
    ("plugin_name", .text default.pluginName),
    ("plugin_version", .text default.pluginVersion)]

/-- Each rule of the schema allows what it makes, and its own default. -/
theorem sound_schema : ∀ r ∈ schema, r.2.Sound := by decide

def members (made : String × Rule → Except Fault Json) : Except Fault Fields :=
  schema.mapM fun r => (made r).map (Prod.mk r.1)

variable {raw n : Json} {fs : Fields}

/-- The members are made rule by rule, in the order of the schema. -/
theorem members_eq_ok_iff {made : String × Rule → Except Fault Json} :
    members made = .ok fs ↔
      List.Forall₂ (fun r f => f.1 = r.1 ∧ made r = .ok f.2) schema fs := by
  rw [members, mapM_eq_ok_iff]
  constructor
  · intro h
    refine h.imp fun r f hf => ?_
    obtain ⟨v, hv, rfl⟩ := Json.ok_of_map hf
    exact ⟨rfl, hv⟩
  · intro h
    refine h.imp fun r f hf => ?_
    rw [hf.2, ← hf.1]
    rfl

/-- A configuration is made rule by rule. -/
theorem map_fields_ofJson (raw : Json) :
    (ofJson raw).map fields = members fun r => r.2.make (given raw r.1) := by
  have hlogging : (Verbosity.ofJson (given raw "logging")).name =
      choose id ["off", "error", "debug"] default.logging.name (given raw "logging") :=
    name_choose _ _ _ _
  have htrace : (Trace.ofJson (given raw "trace")).name =
      choose id ["off", "messages", "verbose"] default.trace.name (given raw "trace") :=
    name_choose _ _ _ _
  have htransport : (TransportMode.ofJson (given raw "transport")).name =
      choose id ["pipe", "relay"] default.transport.name (given raw "transport") :=
    name_choose _ _ _ _
  rw [ofJson_eq]
  simp only [members, schema, List.mapM_cons, Rule.make]
  rw [← hlogging, ← htrace, ← htransport]
  -- Only a number can fail, and the first that does decides for both sides.
  cases bounded 0 10000 default.debounceMs (given raw "debounce_ms") with
  | error f => rfl
  | ok debounceMs =>
    cases bounded 0 65535 default.relayPort (given raw "relay_port") with
    | error f => rfl
    | ok relayPort =>
      cases bounded 1 16 default.tabSize (given raw "tab_size") with
      | error f => rfl
      | ok tabSize =>
        simp only [Except.map, bind, Except.bind, pure, Except.pure, List.mapM_nil, fields,
          assemble]

theorem normalize_eq (raw : Json) :
    normalize raw = (members fun r => r.2.make (given raw r.1)).map .obj := by
  rw [← map_fields_ofJson, normalize]
  cases ofJson raw <;> rfl

/-! ## Settings that are normal -/

/-- The keys of the schema, in its order, with values that its rules allow. -/
def Normal (n : Json) : Prop := ∃ fs, n = .obj fs ∧
  List.Forall₂ (fun r f => f.1 = r.1 ∧ r.2.Allows f.2) schema fs

/-- What comes of normalising is normal. -/
theorem normal_of_normalize (h : normalize raw = .ok n) : Normal n := by
  rw [normalize_eq] at h
  obtain ⟨fs, hfs, rfl⟩ := Json.ok_of_map h
  have hmade := (List.forall₂_and_left _ _).2 ⟨sound_schema, members_eq_ok_iff.1 hfs⟩
  exact ⟨fs, rfl, hmade.imp fun r f hf => ⟨hf.2.1, Rule.allows_of_make hf.1 hf.2.2⟩⟩

section Allowed

variable (h : List.Forall₂ (fun r f => f.1 = r.1 ∧ r.2.Allows f.2) schema fs)

include h

theorem keys_of_allowed : fs.keys = schema.map Prod.fst := by
  rw [Fields.keys, ← List.forall₂_eq_eq_eq, List.forall₂_map_left_iff, List.forall₂_map_right_iff]
  exact (h.imp fun r f hf => hf.1.symm).flip.imp fun f r hr => hr.symm

theorem nodup_keys_of_allowed : fs.keys.Nodup := by
  rw [keys_of_allowed h]
  decide

/-- Normal settings leave nothing of the defaults. -/
theorem withDefaults_of_allowed : withDefaults (.obj fs) = fs := by
  have hk : fs.keys = default.fields.keys := (keys_of_allowed h).trans rfl
  exact Fields.foldl_put_of_keys_eq [] hk (nodup_keys_of_allowed h)

/-- What leaves allowed values as they are finds every member of normal settings. -/
theorem members_of_allowed {made : Rule → Json → Except Fault Json}
    (hmade : ∀ r : Rule, r.Sound → ∀ v, r.Allows v → made r v = .ok v) :
    members (fun r => made r.2 ((Json.obj fs).fieldD r.1)) = .ok fs := by
  have hfound : ∀ f ∈ fs, (Json.obj fs).fieldD f.1 = f.2 := fun f hf =>
    congrArg (fun v : Option Json => v.getD .null)
      (Fields.lookup_of_mem (nodup_keys_of_allowed h) hf)
  have hall := (List.forall₂_and_left _ _).2
    ⟨sound_schema, ((List.forall₂_and_left _ _).2 ⟨hfound, h.flip⟩).flip⟩
  refine members_eq_ok_iff.2 (hall.imp fun r f hf => ?_)
  obtain ⟨hsound, hvalue, hkey, hallowed⟩ := hf
  rw [← hkey, hvalue]
  exact ⟨rfl, hmade r.2 hsound f.2 hallowed⟩

end Allowed

/-- What is normal is left as it is. -/
theorem normalize_of_normal (h : Normal n) : normalize n = .ok n := by
  obtain ⟨fs, rfl, hfs⟩ := h
  have hgiven : ∀ key, given (.obj fs) key = (Json.obj fs).fieldD key := fun key => by
    rw [given, withDefaults_of_allowed hfs]
  rw [normalize_eq]
  simp only [hgiven]
  rw [members_of_allowed hfs fun r hr v hv => Rule.make_of_allows hr hv]
  rfl

/-- The normal settings are those that normalizing leaves alone. -/
theorem normalize_eq_self_iff : normalize n = .ok n ↔ Normal n :=
  ⟨normal_of_normalize, normalize_of_normal⟩

/-! ## Settings as the fields of a configuration -/

/-- The fields of a configuration, each taken over from the member under its key. -/
def takeOver (n : Json) : Except Fault Fields := members fun r => r.2.take (n.fieldD r.1)

/-- Normal settings are taken over as a configuration, field by field. -/
theorem takeOver_of_normal (h : Normal n) : takeOver n = .ok n.fields := by
  obtain ⟨fs, rfl, hfs⟩ := h
  exact members_of_allowed hfs fun r _ v hv => Rule.take_of_allows hv

/-- A configuration is known by its fields. -/
theorem fields_injective : Function.Injective fields := by
  intro c d h
  have hstr : ∀ s t, Json.str s = .str t → s = t := fun _ _ => Json.str.inj
  cases c
  cases d
  simpa only [fields, List.cons.injEq, Prod.mk.injEq, true_and, and_true, Json.bool.injEq,
    Json.int.injEq, Json.str.injEq, Json.arr.injEq, Verbosity.name_inj, Trace.name_inj,
    TransportMode.name_inj, List.map_inj_right hstr, Config.mk.injEq] using h

theorem toJson_injective : Function.Injective toJson :=
  fun _ _ h => fields_injective (Json.obj.inj h)

/-- Settings that come of any value are normal and come of themselves. A configuration that is read
from the value, or from the settings made of it, has exactly their members for its fields. -/
theorem normalize_normal (h : normalize raw = .ok n) :
    Normal n ∧ normalize n = .ok n ∧
      ∃ c, ofJson raw = .ok c ∧ ofJson n = .ok c ∧ c.toJson = n ∧ takeOver n = .ok c.fields := by
  have hn := normal_of_normalize h
  have hself := normalize_of_normal hn
  obtain ⟨c, hc, rfl⟩ := Json.ok_of_map h
  obtain ⟨d, hd, hfields⟩ := Json.ok_of_map hself
  obtain rfl : d = c := toJson_injective hfields
  exact ⟨hn, hself, d, hc, hd, rfl, takeOver_of_normal hn⟩

/-- Numbers out of their bounds, a word for a number, words in other spellings, and one text for all
arguments. -/
theorem normalize_normal_mixed :
    let raw : Json := .obj [("debounce_ms", .int 999999), ("relay_port", .int (-5)),
      ("tab_size", .str "x"), ("logging", .str "VERBOSE"), ("trace", .str " Messages"),
      ("transport", .str "relay"), ("server_args", .str "--stdio  --debug")]
    let c : Config := { default with
      debounceMs := 10000, trace := .messages, transport := .relay
      serverArgs := ["--stdio", "--debug"] }
    normalize raw = .ok c.toJson ∧ Normal c.toJson ∧ normalize c.toJson = .ok c.toJson ∧
      ofJson c.toJson = .ok c ∧ takeOver c.toJson = .ok c.fields := by
  intro raw c
  have hc : ofJson raw = .ok c := eq_ok_of_toOption (by decide +kernel)
  have h : normalize raw = .ok c.toJson := congrArg (Except.map toJson) hc
  clear_value c
  obtain ⟨hn, hself, d, -, hd, hfields, htake⟩ := normalize_normal h
  obtain rfl : d = c := toJson_injective hfields
  exact ⟨h, hn, hself, hd, htake⟩

end Config

end GhostText
