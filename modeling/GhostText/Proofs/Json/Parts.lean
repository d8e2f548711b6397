import GhostText.Proofs.Json.RoundTrip

/-!
# The values inside a value

Induction goes from the items and members of a value to the value itself. A property may hold of a
value and of everything inside it; plain values are those of which three such properties hold.
-/

namespace GhostText.Json

theorem isObject_cases (v : Json) : (∃ fields, v = .obj fields) ∨ v.isObject = false := by
  cases v with
  | obj fields => exact .inl ⟨fields, rfl⟩
  | _ => exact .inr rfl

theorem isObject_of_not_isStructured {v : Json} (h : v.isStructured = false) :
    v.isObject = false := by
  cases v with
  | obj fields => cases h
  | _ => rfl

theorem sizeOf_lt_obj {fields : Fields} {f : String × Json} (h : f ∈ fields) :
    sizeOf f.2 < sizeOf (obj fields) := by
  have hf := List.sizeOf_lt_of_mem h
  have hs : sizeOf f = 1 + sizeOf f.1 + sizeOf f.2 := rfl
  simp only [obj.sizeOf_spec]
  omega

/-- Induction from what a value holds to the value. -/
@[elab_as_elim]
theorem induction {motive : Json → Prop}
    (scalar : ∀ v, v.isStructured = false → motive v)
    (arr : ∀ items, (∀ v ∈ items, motive v) → motive (.arr items))
    (obj : ∀ fields : Fields, (∀ f ∈ fields, motive f.2) → motive (.obj fields)) (v : Json) :
    motive v :=
  match v with
  | .null => scalar .null rfl
  | .bool b => scalar (.bool b) rfl
  | .int n => scalar (.int n) rfl
  | .float x => scalar (.float x) rfl
  | .str s => scalar (.str s) rfl
  | .arr items => arr items fun v _ => induction scalar arr obj v
  | .obj fields => obj fields fun f _ => induction scalar arr obj f.2
termination_by v
decreasing_by
  · decreasing_tactic
  · exact sizeOf_lt_obj ‹_›

mutual

/-- The property holds of the value and of every value inside it. -/
def everywhere (p : Json → Bool) : Json → Bool
  | .arr items => p (.arr items) && everywhereItems p items
  | .obj fields => p (.obj fields) && everywhereMembers p fields
  | .null => p .null
  | .bool b => p (.bool b)
  | .int n => p (.int n)
  | .float x => p (.float x)
  | .str s => p (.str s)

def everywhereItems (p : Json → Bool) : List Json → Bool
  | [] => true
  | v :: rest => everywhere p v && everywhereItems p rest

def everywhereMembers (p : Json → Bool) : List (String × Json) → Bool
  | [] => true
  | (_, v) :: rest => everywhere p v && everywhereMembers p rest

end

section Everywhere

variable {p q : Json → Bool} {v : Json}

/-- A scalar holds nothing but itself. -/
theorem everywhere_scalar (h : v.isStructured = false) : everywhere p v ↔ p v := by
  cases v with
  | arr items => cases h
  | obj fields => cases h
  | _ => exact Iff.rfl

/-- A property holds throughout an array if it holds of it and throughout its items. -/
theorem everywhere_arr {items : List Json} :
    everywhere p (.arr items) ↔ p (.arr items) ∧ ∀ v ∈ items, everywhere p v := by
  have hitems : everywhereItems p items ↔ ∀ v ∈ items, everywhere p v := by
    induction items with
    | nil => simp [everywhereItems]
    | cons v items ih => rw [everywhereItems, Bool.and_eq_true, ih, List.forall_mem_cons]
  rw [everywhere, Bool.and_eq_true, hitems]

/-- A property holds throughout an object if it holds of it and throughout its members. -/
theorem everywhere_obj {fields : Fields} :
    everywhere p (.obj fields) ↔ p (.obj fields) ∧ ∀ f ∈ fields, everywhere p f.2 := by
  have hmembers : everywhereMembers p fields ↔ ∀ f ∈ fields, everywhere p f.2 := by
    induction fields with
    | nil => simp [everywhereMembers]
    | cons f fields ih => rw [everywhereMembers, Bool.and_eq_true, ih, List.forall_mem_cons]
  rw [everywhere, Bool.and_eq_true, hmembers]

theorem everywhere_and :
    everywhere (fun v => p v && q v) v ↔ everywhere p v ∧ everywhere q v := by
  induction v using Json.induction with
  | scalar v h =>
    rw [everywhere_scalar h, everywhere_scalar h, everywhere_scalar h, Bool.and_eq_true]
  | arr items ih =>
    rw [everywhere_arr, everywhere_arr, everywhere_arr, Bool.and_eq_true, forall₂_congr ih,
      forall₂_and, and_and_and_comm]
  | obj fields ih =>
    rw [everywhere_obj, everywhere_obj, everywhere_obj, Bool.and_eq_true, forall₂_congr ih,
      forall₂_and, and_and_and_comm]

end Everywhere

/-! ## Three properties of a part -/

def hasKeysOnce : Json → Bool
  | .obj fields => decide (Fields.keys fields).Nodup
  | _ => true

def isShort : Json → Bool
  | .int n => (Nat.toDigits 10 n.natAbs).length ≤ Text.digitLimit
  | _ => true

def isExact : Json → Bool
  | .float _ => false
  | _ => true

def isLegible (v : Json) : Bool := v.hasKeysOnce && v.isShort

theorem isPlain_arr {items : List Json} : isPlain (.arr items) ↔ ∀ v ∈ items, isPlain v := by
  rw [isPlain]
  induction items with
  | nil => simp [arePlain]
  | cons v items ih => rw [arePlain, Bool.and_eq_true, ih, List.forall_mem_cons]

/-- An object is plain if its keys differ and its members are plain. -/
theorem isPlain_obj {fields : Fields} :
    isPlain (.obj fields) ↔ fields.keys.Nodup ∧ ∀ f ∈ fields, isPlain f.2 := by
  have hmembers : arePlainMembers fields ↔ ∀ f ∈ fields, isPlain f.2 := by
    induction fields with
    | nil => simp [arePlainMembers]
    | cons f fields ih => rw [arePlainMembers, Bool.and_eq_true, ih, List.forall_mem_cons]
  rw [isPlain, Bool.and_eq_true, decide_eq_true_eq, hmembers]

/-- Plain is what every reader keeps: it is legible and has no binary fractions. -/
theorem isPlain_iff {v : Json} : v.isPlain ↔ v.everywhere isLegible ∧ v.everywhere isExact := by
  rw [← everywhere_and]
  induction v using Json.induction with
  | scalar v h =>
    rw [everywhere_scalar h]
    cases v with
    | arr items => cases h
    | obj fields => cases h
    | _ => simp [isPlain, isLegible, hasKeysOnce, isShort, isExact]
  | arr items ih =>
    rw [isPlain_arr, everywhere_arr]
    simp only [isLegible, hasKeysOnce, isShort, isExact, Bool.and_self, true_and]
    exact forall₂_congr ih
  | obj fields ih =>
    rw [isPlain_obj, everywhere_obj]
    simp only [isLegible, hasKeysOnce, isShort, isExact, Bool.and_true, decide_eq_true_eq]
    exact and_congr_right fun _ => forall₂_congr ih

end GhostText.Json
