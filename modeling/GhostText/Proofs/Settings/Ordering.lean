import GhostText.Proofs.Json.Sorting
import GhostText.Proofs.Settings.Normal

/-!
# A configuration and the order of keys

The order of keys shows in a configuration only where a value is shown as a text, in a setting that
is one or among the arguments. Every other setting, and with values whose keys are in order every
setting, is the same for the same settings with their keys in order.
-/

namespace GhostText

open Json (sorted)

/-! ## Words -/

/-- A text that starts with something else than a blank still does when it is trimmed. -/
theorem Text.head?_trim {s : String} {c : Char} {cs : List Char} (h : s.toList = c :: cs)
    (hc : isBlank c = false) : (trim s).toList.head? = some c := by
  have hstart : s.toList.dropWhile isBlank = c :: cs := by
    rw [h, List.dropWhile_cons_of_neg (by simp [hc])]
  have hprefix : trimClass isBlank s.toList <+: c :: cs := hstart ▸ List.rdropWhile_prefix isBlank _
  have hne : trimClass isBlank s.toList ≠ [] := by
    rw [Ne, trimClass_eq_nil_iff, h]
    exact fun hall => Bool.false_ne_true (hc.symm.trans (hall c List.mem_cons_self))
  rw [trim, String.toList_ofList]
  cases ht : trimClass isBlank s.toList with
  | nil => exact absurd ht hne
  | cons d ds =>
    rw [ht, List.cons_prefix_cons] at hprefix
    exact congrArg some hprefix.1

namespace Json

/-- Arrays and objects are shown with a bracket at the start. -/
theorem shown_of_isStructured {v : Json} (h : v.isStructured) :
    ∃ c cs, v.shown.toList = c :: cs ∧ (c = '[' ∨ c = '{') := by
  have hbracket : ∀ (c : Char) (inner close : String),
      (String.singleton c ++ inner ++ close).toList = c :: (inner ++ close).toList := by simp
  cases v with
  | arr items => exact ⟨'[', _, hbracket '[' _ _, .inl rfl⟩
  | obj fields => exact ⟨'{', _, hbracket '{' _ _, .inr rfl⟩
  | _ => cases h

theorem isStructured_sorted (v : Json) : v.sorted.isStructured = v.isStructured := by
  cases v <;> rfl

end Json

/-- No word is made of an array or an object with something in it. -/
theorem choose_of_isStructured {allowed : List String}
    (hwords : allowed.all fun s => s.toList.all Char.isAlpha) (fallback : String) {v : Json}
    (h : v.isStructured) (hfilled : v.truthy) : choose id allowed fallback v = fallback := by
  obtain ⟨c, cs, hshown, hc⟩ := Json.shown_of_isStructured h
  obtain ⟨hblank, hbracket⟩ : Text.isBlank c = false ∧ c.toLower.isAlpha = false := by
    rcases hc with rfl | rfl <;> decide
  have hhead := Text.head?_trim hshown hblank
  have hnone : allowed.find? (fun a => id a == Text.fold (Text.trim v.shown)) = none := by
    refine List.find?_eq_none.2 fun s hs he => ?_
    have hfirst : s.toList.head? = some c.toLower := by
      rw [← id_eq s, beq_iff_eq.1 he, Text.fold, String.toList_ofList, List.head?_map, hhead]
      rfl
    have hletter := List.all_eq_true.1 (List.all_eq_true.1 hwords s hs) _ (List.mem_of_head? hfirst)
    rw [hbracket] at hletter
    cases hletter
  rw [choose, Json.textOr, if_pos hfilled, hnone, Option.getD_none]

/-- A word is chosen alike, whatever order the keys of the value have. -/
theorem choose_sorted {allowed : List String}
    (hwords : allowed.all fun s => s.toList.all Char.isAlpha) (fallback : String) (v : Json) :
    choose id allowed fallback v.sorted = choose id allowed fallback v := by
  cases hv : v.isStructured with
  | false => rw [Json.sorted_of_not_isStructured hv]
  | true =>
    have hsorted : v.sorted.isStructured := v.isStructured_sorted.trans hv
    cases hfilled : v.truthy with
    | true =>
      rw [choose_of_isStructured hwords _ hv hfilled,
        choose_of_isStructured hwords _ hsorted (v.truthy_sorted.trans hfilled)]
    | false =>
      simp only [choose, Json.textOr, Json.truthy_sorted, hfilled, Bool.false_eq_true, if_false]

/-! ## Rules -/

namespace Rule

/-- What is made of the value holds it as a text. -/
def showsText : Rule → Json → Bool
  | .text _, _ => true
  | .path, _ => true
  | .arguments, .arr _ => true
  | _, _ => false

/-- The known words are made of letters. -/
def InLetters : Rule → Prop
  | .word allowed _ => allowed.all fun s => s.toList.all Char.isAlpha
  | _ => True

instance : DecidablePred InLetters
  | .word allowed _ => inferInstanceAs (Decidable (allowed.all fun s => s.toList.all Char.isAlpha))
  | .switch => .isTrue trivial
  | .number _ _ _ => .isTrue trivial
  | .text _ => .isTrue trivial
  | .path => .isTrue trivial
  | .arguments => .isTrue trivial

/-- A rule makes the same of a value with its keys in order, unless it shows the value as a text. -/
theorem make_sorted {r : Rule} (hr : r.InLetters) {v : Json}
    (h : r.showsText v → v.sorted = v) : r.make v.sorted = r.make v := by
  cases r with
  | switch => rw [make, make, Json.truthy_sorted]
  | number low high fallback =>
    rw [make, make, Config.bounded, Config.bounded, Json.toInteger_sorted]
  | word allowed fallback => rw [make, make, choose_sorted hr]
  | text fallback => rw [h rfl]
  | path => rw [h rfl]
  | arguments =>
    cases v with
    | arr items => rw [h rfl]
    | _ => rfl

end Rule

/-! ## Configurations -/

namespace Config

theorem inLetters_schema : ∀ r ∈ schema, r.2.InLetters := by decide

variable {data : Fields} {c d : Config}

/-- A setting that shows as a text a value whose keys are not in order. -/
def ShowsDisorder (data : Fields) (r : String × Rule) : Prop :=
  ∃ v, data.lookup r.1 = some v ∧ r.2.showsText v ∧ v.sorted ≠ v

/-- Where a key stands once its value is the one given. -/
theorem given_of_lookup (hkeys : data.keys.Nodup) {key : String} {v : Json}
    (h : data.lookup key = some v) : given (.obj data) key = v := by
  have hraw : (Json.obj data).fields.keys.Nodup := hkeys
  rw [given_eq hraw, Json.field?, Json.fields, h]
  rfl

/-- Plain settings with a value under every usual key have a configuration. -/
theorem exists_ofJson (h : (Json.obj data).isPlain)
    (hfound : ∀ key ∈ default.fields.keys, key ∈ data.keys) : ∃ c, ofJson (.obj data) = .ok c := by
  obtain ⟨hkeys, hmembers⟩ := Json.isPlain_obj.1 h
  have hnumbers : ∀ key ∈ numberKeys, key ∈ default.fields.keys := by decide
  cases hc : ofJson (.obj data) with
  | ok c => exact ⟨c, rfl⟩
  | error f =>
    obtain ⟨⟨key, hkey, negative, hv⟩, -⟩ := ofJson_eq_error_iff.1 hc
    obtain ⟨v, hlookup⟩ := Fields.exists_lookup (hfound key (hnumbers key hkey))
    have hplain := hmembers _ (Fields.mem_of_lookup hlookup)
    rw [← given_of_lookup hkeys hlookup, hv] at hplain
    cases hplain

/-- Of settings with their keys in order the same is made, unless their disorder shows. -/
theorem make_given_sorted (hkeys : data.keys.Nodup) {r : String × Rule} (hr : r ∈ schema)
    (hfound : r.1 ∈ data.keys) (h : ¬ ShowsDisorder data r) :
    r.2.make (given (.obj data.sorted) r.1) = r.2.make (given (.obj data) r.1) := by
  obtain ⟨v, hv⟩ := Fields.exists_lookup hfound
  have hsorted : data.sorted.lookup r.1 = some v.sorted := by
    rw [Fields.lookup_sorted hkeys, hv, Option.map_some]
  rw [given_of_lookup hkeys hv,
    given_of_lookup ((Fields.perm_keys_sorted data).nodup_iff.2 hkeys) hsorted]
  exact Rule.make_sorted (inLetters_schema r hr) fun ht => by_contra fun hne => h ⟨v, hv, ht, hne⟩

/-- A configuration has, under each key, what the rule makes of the value given. -/
theorem fields_eq_of_ofJson {raw : Json} (h : ofJson raw = .ok c) :
    List.Forall₂ (fun r f => f.1 = r.1 ∧ r.2.make (given raw r.1) = .ok f.2) schema c.fields := by
  rw [← members_eq_ok_iff, ← map_fields_ofJson, h]
  rfl

/-- Every field of a configuration is made by its rule. -/
theorem lookup_fields {raw : Json} (h : ofJson raw = .ok c) {r : String × Rule} (hr : r ∈ schema) :
    ∃ v, c.fields.lookup r.1 = some v ∧ r.2.make (given raw r.1) = .ok v := by
  have hkeys : c.fields.keys.Nodup := by
    have hdefault : default.fields.keys.Nodup := by decide
    exact hdefault
  obtain ⟨i, hi, rfl⟩ := List.mem_iff_getElem.1 hr
  have hmade := fields_eq_of_ofJson h
  have hlength := hmade.length_eq
  obtain ⟨hkey, hvalue⟩ := hmade.get hi (hlength ▸ hi)
  refine ⟨_, ?_, hvalue⟩
  rw [List.get_eq_getElem, List.get_eq_getElem] at hkey
  rw [← hkey]
  exact Fields.lookup_of_mem hkeys (List.getElem_mem _)

/-- Two configurations have the same settings, except where the disorder of keys shows. -/
structure SameButOrder (data : Fields) (c d : Config) : Prop where
  fields : ∀ r ∈ schema, ¬ ShowsDisorder data r → d.fields.lookup r.1 = c.fields.lookup r.1
  whole : (∀ r ∈ schema, ¬ ShowsDisorder data r) → d = c

theorem sameButOrder (hkeys : data.keys.Nodup) (hall : ∀ r ∈ schema, r.1 ∈ data.keys)
    (hc : ofJson (.obj data) = .ok c) (hd : ofJson (.obj data.sorted) = .ok d) :
    SameButOrder data c d := by
  constructor
  · intro r hr h
    obtain ⟨v, hv, hmade⟩ := lookup_fields hc hr
    obtain ⟨w, hw, hmade'⟩ := lookup_fields hd hr
    rw [make_given_sorted hkeys hr (hall r hr) h, hmade] at hmade'
    rw [hv, hw, Except.ok.inj hmade']
  · intro h
    have hmade := (List.forall₂_and_left _ _).2 ⟨fun r hr => hr, fields_eq_of_ofJson hc⟩
    have hsame : members (fun r => r.2.make (given (.obj data.sorted) r.1)) = .ok c.fields := by
      refine members_eq_ok_iff.2 (hmade.imp fun r f hf => ⟨hf.2.1, ?_⟩)
      rw [make_given_sorted hkeys hf.1 (hall r hf.1) (h r hf.1)]
      exact hf.2.2
    rw [← map_fields_ofJson, hd] at hsame
    exact fields_injective (Except.ok.inj hsame)

end Config

end GhostText
