import GhostText.Json.Convert
import GhostText.Proofs.Json.Members
import GhostText.Proofs.Json.Parts

/-!
# Values with their keys in order

Sorting the keys changes the order of members and nothing else: every member is found under its key,
itself with its keys in order, and the value is the same one for every comparison. Only where a
value is shown as a text can the two be told apart.
-/

namespace GhostText

namespace Fields

variable {fs gs : Fields}

/-- Where no key stands twice, the members under a key do not depend on the order. -/
theorem lookup_of_perm (h : fs.Perm gs) (hf : fs.keys.Nodup) (key : String) :
    fs.lookup key = gs.lookup key := by
  have hg : gs.keys.Nodup := (h.map Prod.fst).nodup_iff.1 hf
  refine Option.ext fun v => ⟨fun hv => ?_, fun hv => ?_⟩
  · exact lookup_of_mem hg (h.mem_iff.1 (mem_of_lookup hv))
  · exact lookup_of_mem hf (h.mem_iff.2 (mem_of_lookup hv))

theorem lookup_map (g : Json → Json) (fs : Fields) (key : String) :
    List.lookup key (fs.map fun f => (f.1, g f.2)) = (fs.lookup key).map g := by
  induction fs with
  | nil => rfl
  | cons f fs ih =>
    rw [List.map_cons, List.lookup_cons, List.lookup_cons, ih]
    cases key == f.1 <;> rfl

theorem keys_map (g : Json → Json) (fs : Fields) :
    keys (fs.map fun f => (f.1, g f.2)) = fs.keys := by
  rw [keys, List.map_map]
  rfl

/-- No key stands behind a greater one. -/
def InOrder (fs : Fields) : Prop := fs.Pairwise fun f g => f.1 ≤ g.1

instance : DecidablePred InOrder := fun fs => inferInstanceAs (Decidable (fs.Pairwise _))

theorem perm_sortFields (fs : Fields) : (Json.sortFields fs).Perm fs := List.mergeSort_perm _ _

/-- Sorted members are in the order of their keys. -/
theorem inOrder_sortFields (fs : Fields) : (Json.sortFields fs).InOrder := by
  refine (List.pairwise_mergeSort ?_ ?_ fs).imp of_decide_eq_true
  · intro f g h hfg hgh
    exact decide_eq_true (String.le_trans (of_decide_eq_true hfg) (of_decide_eq_true hgh))
  · intro f g
    simpa using String.le_total f.1 g.1

/-- Sorting leaves members that are in order. -/
theorem sortFields_eq_self (h : fs.InOrder) : Json.sortFields fs = fs :=
  List.mergeSort_of_pairwise (h.imp decide_eq_true)

/-- There is one order only in which no key stands behind a greater one. -/
theorem sortFields_eq_of_perm (h : fs.Perm gs) (hf : fs.keys.Nodup) (hg : gs.InOrder) :
    Json.sortFields fs = gs := by
  have hp : (Json.sortFields fs).Perm gs := (perm_sortFields fs).trans h
  have hs : (Json.sortFields fs).Pairwise fun f g => f.1 ≤ g.1 := inOrder_sortFields fs
  refine hp.eq_of_pairwise ?_ hs hg
  intro f g hfs hgs hfg hgf
  have hkey : f.1 = g.1 := String.le_antisymm hfg hgf
  have hgkeys : gs.keys.Nodup := (h.map Prod.fst).nodup_iff.1 hf
  have hboth := lookup_of_mem hgkeys (hp.mem_iff.1 hfs)
  rw [hkey, lookup_of_mem hgkeys hgs] at hboth
  exact Prod.ext hkey (Option.some.inj hboth).symm

/-- The members in the order of their keys, and so the members of their values. -/
def sorted (fs : Fields) : Fields := Json.sortFields (fs.map fun f => (f.1, f.2.sorted))

theorem perm_sorted (fs : Fields) : fs.sorted.Perm (fs.map fun f => (f.1, f.2.sorted)) :=
  perm_sortFields _

/-- An object whose keys are in order is what sorting makes of any other order of its members. -/
theorem sorted_eq_of_perm (h : (fs.map fun f => (f.1, f.2.sorted)).Perm gs) (hf : fs.keys.Nodup)
    (hg : gs.InOrder) : fs.sorted = gs :=
  sortFields_eq_of_perm h ((keys_map Json.sorted fs).symm ▸ hf) hg

theorem perm_keys_sorted (fs : Fields) : fs.sorted.keys.Perm fs.keys := by
  have hp := (perm_sorted fs).map Prod.fst
  rwa [← keys, ← keys, keys_map] at hp

/-- Every member is found under its key as before, with its own keys in order. -/
theorem lookup_sorted (h : fs.keys.Nodup) (key : String) :
    fs.sorted.lookup key = (fs.lookup key).map Json.sorted := by
  rw [lookup_of_perm (perm_sorted fs) ((perm_keys_sorted fs).nodup_iff.2 h), lookup_map]

theorem forall_mem_sorted {P : String × Json → Prop} :
    (∀ f ∈ fs.sorted, P f) ↔ ∀ f ∈ fs, P (f.1, f.2.sorted) := by
  simp only [(perm_sorted fs).mem_iff, List.forall_mem_map]

end Fields

namespace Json

open Fields

theorem sorted_of_not_isStructured {v : Json} (h : v.isStructured = false) : v.sorted = v := by
  cases v with
  | arr items => cases h
  | obj fields => cases h
  | _ => rfl

theorem sorted_arr (items : List Json) : sorted (.arr items) = .arr (items.map sorted) := by
  have hitems : sortedItems items = items.map sorted := by
    induction items with
    | nil => rfl
    | cons v items ih => rw [sortedItems, ih, List.map_cons]
  rw [sorted, hitems]

theorem sorted_obj (fields : Fields) : sorted (.obj fields) = .obj fields.sorted := by
  have hmembers : sortedMembers fields = fields.map fun f => (f.1, f.2.sorted) := by
    induction fields with
    | nil => rfl
    | cons f fields ih => rw [sortedMembers, ih, List.map_cons]
  rw [sorted, hmembers, Fields.sorted]

/-- A plain value stays plain when it is sorted. -/
theorem isPlain_sorted {v : Json} (h : v.isPlain) : v.sorted.isPlain := by
  induction v using Json.induction with
  | scalar v hv => rwa [sorted_of_not_isStructured hv]
  | arr items ih =>
    rw [sorted_arr, isPlain_arr, List.forall_mem_map]
    exact fun v hv => ih v hv (isPlain_arr.1 h v hv)
  | obj fields ih =>
    obtain ⟨hkeys, hmembers⟩ := isPlain_obj.1 h
    rw [sorted_obj, isPlain_obj, forall_mem_sorted]
    exact ⟨(perm_keys_sorted fields).nodup_iff.2 hkeys, fun f hf => ih f hf (hmembers f hf)⟩

/-- Once in order, the keys stay as they are. -/
theorem sorted_sorted (v : Json) : v.sorted.sorted = v.sorted := by
  induction v using Json.induction with
  | scalar v hv => rw [sorted_of_not_isStructured hv, sorted_of_not_isStructured hv]
  | arr items ih =>
    rw [sorted_arr, sorted_arr, List.map_map]
    exact congrArg arr (List.map_congr_left ih)
  | obj fields ih =>
    have hself : ∀ f ∈ fields.sorted, (f.1, Json.sorted f.2) = f :=
      forall_mem_sorted.2 fun f hf => Prod.ext rfl (ih f hf)
    rw [sorted_obj, sorted_obj, Fields.sorted, List.map_congr_left hself, List.map_id']
    exact congrArg obj (sortFields_eq_self (inOrder_sortFields _))

/-! ## The same value -/

theorem same_scalar {v : Json} (hv : v.isStructured = false) (h : v.isPlain) : v.same v := by
  cases v with
  | float x => cases h
  | arr items => cases hv
  | obj fields => cases hv
  | _ => simp [same, size?, Size.same]

theorem sameItems_map {g : Json → Json} {items : List Json} (h : ∀ v ∈ items, v.same (g v)) :
    sameItems items (items.map g) := by
  induction items with
  | nil => rfl
  | cons v items ih =>
    obtain ⟨hv, hitems⟩ := List.forall_mem_cons.1 h
    rw [List.map_cons, sameItems, hv, ih hitems, Bool.and_self]

/-- Objects are the same if each member of one is found in the other. -/
theorem sameFields_of_lookup {xs ys : Fields}
    (h : ∀ f ∈ xs, ∃ w, ys.lookup f.1 = some w ∧ f.2.same w) : sameFields xs ys := by
  induction xs with
  | nil => rfl
  | cons f xs ih =>
    obtain ⟨⟨w, hw, hsame⟩, hrest⟩ := List.forall_mem_cons.1 h
    rw [sameFields, hw, ih hrest, Bool.and_true]
    exact hsame

/-- A plain value and the one with its keys in order are the same. -/
theorem same_sorted {v : Json} (h : v.isPlain) : v.same v.sorted := by
  induction v using Json.induction with
  | scalar v hv =>
    rw [sorted_of_not_isStructured hv]
    exact same_scalar hv h
  | arr items ih =>
    rw [sorted_arr, same]
    exact sameItems_map fun v hv => ih v hv (isPlain_arr.1 h v hv)
  | obj fields ih =>
    obtain ⟨hkeys, hmembers⟩ := isPlain_obj.1 h
    have hlength : fields.length = fields.sorted.length := by
      rw [(perm_sorted fields).length_eq, List.length_map]
    rw [sorted_obj, same, Bool.and_eq_true, beq_iff_eq]
    refine ⟨hlength, sameFields_of_lookup fun f hf => ?_⟩
    refine ⟨f.2.sorted, ?_, ih f hf (hmembers f hf)⟩
    rw [lookup_sorted hkeys, lookup_of_mem hkeys hf, Option.map_some]

/-! ## What does not depend on the order -/

theorem truthy_sorted (v : Json) : v.sorted.truthy = v.truthy := by
  cases v with
  | arr items =>
    rw [sorted_arr, truthy, truthy, List.isEmpty_map]
  | obj fields =>
    rw [sorted_obj, truthy, truthy, (perm_sorted fields).isEmpty_eq, List.isEmpty_map]
  | _ => rfl

/-- The number that a value stands for does not hang on the order of keys. -/
theorem toInteger_sorted (v : Json) : v.sorted.toInteger = v.toInteger := by
  cases v <;> rfl

end Json

end GhostText
