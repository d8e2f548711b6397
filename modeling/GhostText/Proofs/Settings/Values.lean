import GhostText.Proofs.Json.Members
import GhostText.Settings.Config

/-!
# The values settings are made of

Every setting is made of one value, the one given for it or its default, and a configuration is what
is made of all of them. Only a number can fail to be made, and only of an infinite one.
-/

namespace GhostText

/-- A number beyond all bounds. -/
def Json.IsInfinite (v : Json) : Prop := ∃ negative, v = .float (.infinity negative)

/-- No other value fails in a way that has no fallback. -/
theorem Json.isInfinite_of_toInteger {v : Json} {f : Fault} (h : v.toInteger = .error f) :
    f.kind = .value ∨ f.kind = .type ∨ f = .infinityAsInteger ∧ v.IsInfinite := by
  cases v with
  | int n => cases h
  | bool b => cases h
  | float x =>
    cases x with
    | nan =>
      cases h
      exact .inl rfl
    | infinity negative =>
      cases h
      exact .inr (.inr ⟨rfl, negative, rfl⟩)
    | finite negative m e => cases h
  | str s =>
    rw [toInteger] at h
    split at h
    · cases h
    · cases h
      exact .inl rfl
    · cases h
      exact .inl rfl
  | _ =>
    cases h
    exact .inr (.inl rfl)

/-- A failure that no fallback is for comes of an infinite number. -/
theorem Json.isInfinite_of_no_fallback {v : Json} {f : Fault} (h : v.toInteger = .error f)
    (hkind : ¬ (f.kind = .value ∨ f.kind = .type)) : v.IsInfinite ∧ f = .infinityAsInteger := by
  rcases isInfinite_of_toInteger h with hv | ht | hi
  · exact absurd (.inl hv) hkind
  · exact absurd (.inr ht) hkind
  · exact hi.symm

namespace Config

/-! ## Numbers -/

section Bounded

variable {low high fallback : Int} {v : Json}

/-- Only an infinite number cannot be brought into bounds. -/
theorem bounded_eq_error_iff {f : Fault} :
    bounded low high fallback v = .error f ↔ v.IsInfinite ∧ f = .infinityAsInteger := by
  constructor
  · intro h
    unfold bounded at h
    split at h
    · cases h
    · next g hg =>
      split at h
      · cases h
      · next hkind =>
        cases h
        exact Json.isInfinite_of_no_fallback hg hkind
  · rintro ⟨⟨negative, rfl⟩, rfl⟩
    rfl

/-- A number comes out within its bounds, since the fallback lies within them. -/
theorem bounded_mem {n : Int} (hl : low ≤ fallback) (hh : fallback ≤ high)
    (h : bounded low high fallback v = .ok n) : low ≤ n ∧ n ≤ high := by
  unfold bounded at h
  split at h
  · cases h
    omega
  · split at h
    · cases h
      exact ⟨hl, hh⟩
    · cases h

/-- A whole number within the bounds is itself. -/
theorem bounded_int {n : Int} (hl : low ≤ n) (hh : n ≤ high) :
    bounded low high fallback (.int n) = .ok n := by
  have hn : max low (min high n) = n := by omega
  simp [bounded, hn]

end Bounded

/-! ## All settings -/

/-- The value given under a key, or else the default. -/
def given (raw : Json) (key : String) : Json := (Json.obj (withDefaults raw)).fieldD key

/-- The value given for a key is its own or its default, or null. -/
theorem given_eq {raw : Json} (h : raw.fields.keys.Nodup) (key : String) :
    given raw key = ((raw.field? key).or (default.fields.lookup key)).getD .null :=
  congrArg (fun v : Option Json => v.getD .null) (Fields.lookup_foldl_put h key default.fields)

def numberKeys : List String := ["debounce_ms", "relay_port", "tab_size"]

variable {raw : Json} {c : Config}

/-- A configuration is made value by value, and the first that is refused refuses all of it. -/
theorem ofJson_eq (raw : Json) : ofJson raw = (do
    let debounceMs ← bounded 0 10000 default.debounceMs (given raw "debounce_ms")
    let relayPort ← bounded 0 65535 default.relayPort (given raw "relay_port")
    let tabSize ← bounded 1 16 default.tabSize (given raw "tab_size")
    return assemble (given raw) debounceMs relayPort tabSize) := rfl

/-- A configuration is described if its numbers can be made. -/
theorem ofJson_eq_ok_iff : ofJson raw = .ok c ↔ ∃ debounceMs relayPort tabSize,
    bounded 0 10000 default.debounceMs (given raw "debounce_ms") = .ok debounceMs ∧
    bounded 0 65535 default.relayPort (given raw "relay_port") = .ok relayPort ∧
    bounded 1 16 default.tabSize (given raw "tab_size") = .ok tabSize ∧
    c = assemble (given raw) debounceMs relayPort tabSize := by
  constructor
  · intro h
    obtain ⟨debounceMs, hd, h⟩ := exists_of_bind_eq_ok h
    obtain ⟨relayPort, hp, h⟩ := exists_of_bind_eq_ok h
    obtain ⟨tabSize, ht, h⟩ := exists_of_bind_eq_ok h
    exact ⟨debounceMs, relayPort, tabSize, hd, hp, ht, (Except.ok.inj h).symm⟩
  · rintro ⟨debounceMs, relayPort, tabSize, hd, hp, ht, rfl⟩
    rw [ofJson_eq, hd, hp, ht]
    rfl

/-- None is described if, and only if, one of the numbers is infinite. -/
theorem ofJson_eq_error_iff {f : Fault} : ofJson raw = .error f ↔
    (∃ key ∈ numberKeys, (given raw key).IsInfinite) ∧ f = .infinityAsInteger := by
  have hforth : ∀ g, ofJson raw = .error g →
      (∃ key ∈ numberKeys, (given raw key).IsInfinite) ∧ g = .infinityAsInteger := by
    intro g h
    rcases error_of_bind_eq_error h with hd | ⟨debounceMs, _, h⟩
    · obtain ⟨hv, hg⟩ := bounded_eq_error_iff.1 hd
      exact ⟨⟨"debounce_ms", by decide, hv⟩, hg⟩
    rcases error_of_bind_eq_error h with hp | ⟨relayPort, _, h⟩
    · obtain ⟨hv, hg⟩ := bounded_eq_error_iff.1 hp
      exact ⟨⟨"relay_port", by decide, hv⟩, hg⟩
    rcases error_of_bind_eq_error h with ht | ⟨tabSize, _, h⟩
    · obtain ⟨hv, hg⟩ := bounded_eq_error_iff.1 ht
      exact ⟨⟨"tab_size", by decide, hv⟩, hg⟩
    · cases h
  refine ⟨hforth f, ?_⟩
  rintro ⟨⟨key, hkey, hv⟩, rfl⟩
  cases h : ofJson raw with
  | error g => rw [(hforth g h).2]
  | ok c =>
    obtain ⟨debounceMs, relayPort, tabSize, hd, hp, ht, -⟩ := ofJson_eq_ok_iff.1 h
    have hfails : ∀ low high fallback,
        bounded low high fallback (given raw key) = .error .infinityAsInteger :=
      fun _ _ _ => bounded_eq_error_iff.2 ⟨hv, rfl⟩
    simp only [numberKeys, List.mem_cons, List.not_mem_nil, or_false] at hkey
    rcases hkey with rfl | rfl | rfl
    · rw [hfails] at hd
      cases hd
    · rw [hfails] at hp
      cases hp
    · rw [hfails] at ht
      cases ht

end Config

end GhostText
