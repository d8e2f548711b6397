import GhostText.Proofs.Settings.Values
import GhostText.Proofs.Text.Blanks

/-!
# The rule of a setting

Every setting has a rule: which values it may have, and which of them is made of a value of any
kind. What is made is allowed, and an allowed value is made of itself. The fallback of a rule has to
be allowed for that, and those of the schema are.
-/

namespace GhostText

/-- A text that says something and has no blanks around it. -/
structure Text.IsSolid (s : String) : Prop where
  filled : s ≠ ""
  trimmed : Text.IsTrimmed s

instance (s : String) : Decidable (Text.IsSolid s) :=
  decidable_of_iff (s ≠ "" ∧ Text.IsTrimmed s) ⟨fun h => ⟨h.1, h.2⟩, fun h => ⟨h.1, h.2⟩⟩

/-- The kinds of settings, with their bounds and with what takes the place of an unusable value. -/
inductive Rule where
  | switch
  | number (low high fallback : Int)
  | word (allowed : List String) (fallback : String)
  | text (fallback : String)
  | path
  | arguments

namespace Rule

/-- The values a setting may have. -/
def Allows : Rule → Json → Prop
  | .switch, v => ∃ b, v = .bool b
  | .number low high _, v => ∃ n, v = .int n ∧ low ≤ n ∧ n ≤ high
  | .word allowed _, v => ∃ s ∈ allowed, v = .str s ∧ Text.IsSolid s
  | .text _, v => ∃ s, v = .str s ∧ Text.IsSolid s
  | .path, v => ∃ s, v = .str s ∧ Text.IsTrimmed s
  | .arguments, v => ∃ args : List String, v = .arr (args.map .str) ∧ ∀ a ∈ args, Text.HasInk a

/-- The value of a setting, made of the one given for it. -/
def make : Rule → Json → Except Fault Json
  | .switch, v => .ok (.bool v.truthy)
  | .number low high fallback, v => (Config.bounded low high fallback v).map .int
  | .word allowed fallback, v => .ok (.str (choose id allowed fallback v))
  | .text fallback, v => .ok (.str (Config.textOf fallback v))
  | .path, v => .ok (.str (Text.trim v.textOrEmpty))
  | .arguments, v => .ok (.arr ((Config.argumentsOf v).map .str))

def take : Rule → Json → Except Fault Json
  | .switch, v => .ok (.bool v.truthy)
  | .number _ _ _, v => v.toInteger.map .int
  | .word _ _, v => .ok (.str v.shown)
  | .text _, v => .ok (.str v.shown)
  | .path, v => .ok (.str v.shown)
  | .arguments, v => v.items.map .arr

/-- The fallback is among what the rule allows. -/
def Sound : Rule → Prop
  | .number low high fallback => low ≤ fallback ∧ fallback ≤ high
  | .word allowed fallback =>
    fallback ∈ allowed ∧ ∀ s ∈ allowed, Text.IsSolid s ∧ Text.fold s = s
  | .text fallback => Text.IsSolid fallback
  | _ => True

instance : DecidablePred Sound
  | .switch => .isTrue trivial
  | .number low high fallback => inferInstanceAs (Decidable (low ≤ fallback ∧ fallback ≤ high))
  | .word allowed fallback => inferInstanceAs (Decidable
      (fallback ∈ allowed ∧ ∀ s ∈ allowed, Text.IsSolid s ∧ Text.fold s = s))
  | .text fallback => inferInstanceAs (Decidable (Text.IsSolid fallback))
  | .path => .isTrue trivial
  | .arguments => .isTrue trivial

end Rule

/-! ## What is made is allowed -/

/-- Whatever the known ones are, they are chosen from by their names. -/
theorem name_choose {α : Type} (name : α → String) (known : List α) (fallback : α) (v : Json) :
    name (choose name known fallback v) = choose id (known.map name) (name fallback) v := by
  simp only [choose, id_eq, List.find?_map, Function.comp_def]
  cases known.find? _ <;> rfl

/-- A word that is chosen is one of those allowed. -/
theorem choose_mem {allowed : List String} {fallback : String} (h : fallback ∈ allowed)
    (v : Json) : choose id allowed fallback v ∈ allowed := by
  rw [choose]
  cases hf : allowed.find? _ with
  | none => exact h
  | some s => exact List.mem_of_find?_eq_some hf

namespace Config

/-- A text that is made is solid, or the fallback is taken. -/
theorem isSolid_textOf {fallback : String} (h : Text.IsSolid fallback) (v : Json) :
    Text.IsSolid (textOf fallback v) := by
  rw [textOf]
  split
  · exact h
  · next hs => exact ⟨by simpa using hs, Text.isTrimmed_trim _⟩

/-- A value with ink in it counts as true, so it is shown as it is. -/
theorem hasInk_shown {v : Json} (h : Text.HasInk v.textOrEmpty) : Text.HasInk v.shown := by
  rw [Json.textOrEmpty] at h
  split at h
  · exact h
  · exact absurd h (by decide)

theorem hasInk_of_mem_argumentsOf {v : Json} {a : String} (h : a ∈ argumentsOf v) :
    Text.HasInk a := by
  have hdefault : ∀ a ∈ default.serverArgs, Text.HasInk a := by decide
  cases v with
  | str s => exact Text.hasInk_of_mem_words h
  | arr items =>
    obtain ⟨item, hitem, rfl⟩ := List.mem_map.1 h
    obtain ⟨-, hfilled⟩ := List.mem_filter.1 hitem
    rw [Bool.not_eq_true', Text.isEmpty_trim_eq_false_iff] at hfilled
    exact hasInk_shown hfilled
  | _ => exact hdefault a h

end Config

/-- A rule allows what it makes of any value. -/
theorem Rule.allows_of_make {r : Rule} (hr : r.Sound) {v w : Json} (h : r.make v = .ok w) :
    r.Allows w := by
  cases r with
  | switch => exact ⟨_, (Except.ok.inj h).symm⟩
  | number low high fallback =>
    obtain ⟨n, hn, rfl⟩ := Json.ok_of_map h
    exact ⟨n, rfl, Config.bounded_mem hr.1 hr.2 hn⟩
  | word allowed fallback =>
    have hm := choose_mem hr.1 v
    exact ⟨_, hm, (Except.ok.inj h).symm, (hr.2 _ hm).1⟩
  | text fallback => exact ⟨_, (Except.ok.inj h).symm, Config.isSolid_textOf hr v⟩
  | path => exact ⟨_, (Except.ok.inj h).symm, Text.isTrimmed_trim _⟩
  | arguments =>
    exact ⟨_, (Except.ok.inj h).symm, fun a ha => Config.hasInk_of_mem_argumentsOf ha⟩

/-! ## What is allowed is made of itself -/

/-- A word that is allowed is chosen for itself. -/
theorem choose_self {allowed : List String} {s : String} (hm : s ∈ allowed) (hs : Text.IsSolid s)
    (hfold : Text.fold s = s) (fallback : String) : choose id allowed fallback (.str s) = s := by
  have hv : (Json.str s).textOr (id fallback) = s := by
    simp [Json.textOr, Json.truthy, hs.filled]
  have hfound : allowed.find? (fun a => id a == s) = some s := by
    cases hf : allowed.find? (fun a => id a == s) with
    | none => exact absurd (beq_self_eq_true s) (List.find?_eq_none.1 hf s hm)
    | some a =>
      have he : (id a == s) = true := List.find?_some (p := fun a => id a == s) hf
      exact congrArg some (beq_iff_eq.1 he)
  rw [choose, hv, hs.trimmed.trim_eq, hfold, hfound, Option.getD_some]

namespace Config

theorem textOf_self {s : String} (h : Text.IsSolid s) (fallback : String) :
    textOf fallback (.str s) = s := by
  simp [textOf, h.trimmed.trim_eq, h.filled]

theorem argumentsOf_self {args : List String} (h : ∀ a ∈ args, Text.HasInk a) :
    argumentsOf (.arr (args.map .str)) = args := by
  have hkept : ∀ v ∈ args.map Json.str, (!(Text.trim v.textOrEmpty).isEmpty) = true := by
    intro v hv
    obtain ⟨a, ha, rfl⟩ := List.mem_map.1 hv
    rw [Json.textOrEmpty_str, Bool.not_eq_true', Text.isEmpty_trim_eq_false_iff]
    exact h a ha
  rw [argumentsOf, List.filter_eq_self.2 hkept, List.map_map]
  exact List.map_id args

end Config

/-- A rule leaves what it allows. -/
theorem Rule.make_of_allows {r : Rule} (hr : r.Sound) {w : Json} (h : r.Allows w) :
    r.make w = .ok w := by
  cases r with
  | switch =>
    obtain ⟨b, rfl⟩ := h
    rfl
  | number low high fallback =>
    obtain ⟨n, rfl, hl, hh⟩ := h
    rw [make, Config.bounded_int hl hh]
    rfl
  | word allowed fallback =>
    obtain ⟨s, hm, rfl, hs⟩ := h
    rw [make, choose_self hm hs (hr.2 s hm).2]
  | text fallback =>
    obtain ⟨s, rfl, hs⟩ := h
    rw [make, Config.textOf_self hs]
  | path =>
    obtain ⟨s, rfl, hs⟩ := h
    rw [make, Json.textOrEmpty_str, hs.trim_eq]
  | arguments =>
    obtain ⟨args, rfl, ha⟩ := h
    rw [make, Config.argumentsOf_self ha]

/-- An allowed value is of the type of its field already. -/
theorem Rule.take_of_allows {r : Rule} {w : Json} (h : r.Allows w) : r.take w = .ok w := by
  cases r with
  | switch =>
    obtain ⟨b, rfl⟩ := h
    rfl
  | number low high fallback =>
    obtain ⟨n, rfl, -⟩ := h
    rfl
  | word allowed fallback =>
    obtain ⟨s, -, rfl, -⟩ := h
    rfl
  | text fallback =>
    obtain ⟨s, rfl, -⟩ := h
    rfl
  | path =>
    obtain ⟨s, rfl, -⟩ := h
    rfl
  | arguments =>
    obtain ⟨args, rfl, -⟩ := h
    rfl

end GhostText
