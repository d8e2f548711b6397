import GhostText.Proofs.Json.Members
import GhostText.Proofs.Settings.Keys

/-!
# Dotted keys as lenses

What is set under a dotted key is got back, setting what is there already changes nothing, the last
of two settings counts, and what lies neither above nor below the key is as it was. A key is the
list of its parts, those between its dots; a part may be empty.
-/

namespace GhostText

/-! ## The parts of a key -/

/-- At one character a text is cut as any list is. -/
theorem Text.pieces_singleton (c : Char) (t : Text) : Text.pieces [c] t = t.splitOn c := by
  induction t with
  | nil => rfl
  | cons d t ih =>
    have hsplit : (splitFrom [c] 0 t).1 :: (splitFrom [c] 0 t).2 = t.splitOn c := ih
    rw [List.splitOn] at hsplit ⊢
    rw [List.splitOnP_cons_eq_if_modifyHead, ← hsplit]
    by_cases h : d = c
    · subst h
      simp [pieces, splitFrom]
    · have hne : ¬ c = d := fun e => h e.symm
      simp [pieces, splitFrom, h, hne]

theorem Text.not_mem_of_mem_splitOn {c : Char} {t l : Text} (h : l ∈ t.splitOn c) : c ∉ l := by
  rw [← pieces_singleton] at h
  induction t generalizing l with
  | nil =>
    obtain rfl : l = [] := by simpa [pieces, splitFrom] using h
    exact List.not_mem_nil
  | cons d t ih =>
    by_cases hd : c = d
    · subst hd
      rw [pieces, splitFrom, if_pos (by simp)] at h
      obtain rfl | h := List.mem_cons.1 h
      · exact List.not_mem_nil
      · exact ih h
    · rw [pieces, splitFrom, if_neg (by simpa using hd)] at h
      obtain rfl | h := List.mem_cons.1 h
      · rw [List.mem_cons, not_or]
        exact ⟨hd, ih List.mem_cons_self⟩
      · exact ih (List.mem_cons_of_mem _ h)

namespace Json

/-- The parts stand between the dots of the key. -/
structure AreParts (parts : List String) (key : String) : Prop where
  joined : ".".intercalate parts = key
  dotless : ∀ part ∈ parts, '.' ∉ part.toList

/-- A key is cut into its parts at the dots. -/
theorem areParts_keyParts (key : String) : AreParts (keyParts key) key := by
  rw [keyParts, Text.pieces_singleton]
  constructor
  · have hlist : String.toList ∘ String.ofList = id := funext fun t => String.toList_ofList
    rw [← String.toList_inj, String.toList_intercalate, List.map_map, hlist, List.map_id]
    exact List.intercalate_splitOn '.'
  · intro part hpart
    obtain ⟨t, ht, rfl⟩ := List.mem_map.1 hpart
    rw [String.toList_ofList]
    exact Text.not_mem_of_mem_splitOn ht

/-- A key that is not empty has its parts and no others. -/
theorem AreParts.keyParts_eq {parts : List String} {key : String} (h : AreParts parts key)
    (hkey : key ≠ "") : keyParts key = parts := by
  obtain ⟨rfl, hdotless⟩ := h
  have hne : parts.map String.toList ≠ [] := by
    rintro hnil
    rw [List.map_eq_nil_iff] at hnil
    subst hnil
    exact hkey rfl
  have hfree : ∀ l ∈ parts.map String.toList, '.' ∉ l := by
    intro l hl
    obtain ⟨part, hpart, rfl⟩ := List.mem_map.1 hl
    exact hdotless part hpart
  have hlist : String.ofList ∘ String.toList = id := funext fun s => String.ofList_toList
  rw [keyParts, Text.pieces_singleton, String.toList_intercalate]
  rw [show ".".toList = ['.'] from rfl, List.splitOn_intercalate '.' hfree hne, List.map_map, hlist,
    List.map_id]

/-! ## Putting twice, and putting what is there -/

/-- Of two values put at the end of a path the second one stays. -/
theorem putPath_putPath (v w : Json) {p : List String} (hp : p ≠ []) (fields : Fields) :
    putPath w p (putPath v p fields) = putPath w p fields := by
  induction p generalizing fields with
  | nil => exact absurd rfl hp
  | cons k p ih =>
    cases p with
    | nil => exact Fields.put_put k v w fields
    | cons l p =>
      have hne : l :: p ≠ [] := List.cons_ne_nil l p
      rw [putPath_cons v k hne, putPath_cons w k hne, putPath_cons w k hne, Fields.lookup_put_self,
        membersOf, ih hne, Fields.put_put]

/-- A value that stands at the end of a path already is put there without a change. -/
theorem putPath_of_lookupPath {v : Json} {p : List String} (hp : p ≠ []) {fields : Fields}
    (h : lookupPath p (.obj fields) = some v) : putPath v p fields = fields := by
  induction p generalizing fields with
  | nil => exact absurd rfl hp
  | cons k p ih =>
    rw [lookupPath_cons] at h
    obtain ⟨u, hu, h⟩ := Option.bind_eq_some_iff.1 h
    cases p with
    | nil =>
      cases h
      exact Fields.put_of_lookup hu
    | cons l p =>
      have hne : l :: p ≠ [] := List.cons_ne_nil l p
      obtain ⟨inner, rfl⟩ : ∃ inner, u = .obj inner := by
        cases u with
        | obj inner => exact ⟨inner, rfl⟩
        | _ => cases h
      rw [putPath_cons v k hne, hu, membersOf, ih hne h, Fields.put_of_lookup hu]

/-! ## The laws -/

/-- A key has one list of parts. -/
theorem pathOf_eq {parts : List String} {key : String} (h : AreParts parts key)
    (hkey : key ≠ "") : pathOf key = parts := by
  have hne : ¬ key.isEmpty = true := by simpa using hkey
  rw [pathOf, if_neg hne, h.keyParts_eq hkey]

/-- Setting a key of an object works, and then: the value is got under the key; an object that had
the value is the same as before; setting the key again makes what setting it once would have; and
under a key of which neither leads on from the other is whatever was there. -/
theorem setKey_lens {key other : String} (hkey : key ≠ "") (hother : other ≠ "")
    {parts otherParts : List String} (hparts : AreParts parts key)
    (hotherParts : AreParts otherParts other) (fields : Fields) (v w : Json) :
    ∃ once, setKey key v fields = .ok once ∧
      (∀ fallback, (getKey? key (.obj once)).getD fallback = v) ∧
      (getKey? key (.obj fields) = some v → once = fields) ∧
      setKey key w once = setKey key w fields ∧
      (¬ parts <+: otherParts → ¬ otherParts <+: parts → ∀ fallback,
        (getKey? other (.obj once)).getD fallback =
          (getKey? other (.obj fields)).getD fallback) := by
  have hpath := pathOf_ne_nil hkey
  refine ⟨_, setKey_eq_ok hkey v fields, ?_, ?_, ?_, ?_⟩
  · intro fallback
    have hself := lookupPath_putPath_below v hpath [] fields
    rw [List.append_nil] at hself
    rw [getKey?_eq_lookupPath, hself]
    rfl
  · intro h
    rw [getKey?_eq_lookupPath] at h
    exact putPath_of_lookupPath hpath h
  · rw [setKey_eq_ok hkey, setKey_eq_ok hkey, putPath_putPath v w hpath]
  · intro hdown hup fallback
    rw [← pathOf_eq hparts hkey, ← pathOf_eq hotherParts hother] at hdown hup
    rw [getKey?_eq_lookupPath, getKey?_eq_lookupPath, lookupPath_putPath_apart v hup hdown]

/-- A path runs through a number that makes way, below the same first part as the other key. -/
theorem setKey_lens_through_number :
    let fields : Fields := [("a", .obj [("b", .int 1), ("", .int 2)])]
    AreParts ["a", "b", "c"] "a.b.c" ∧ AreParts ["a", ""] "a." ∧
      ∃ once, setKey "a.b.c" .null fields = .ok once ∧ getKey? "a.b.c" (.obj once) = some .null ∧
        (getKey? "a." (.obj once)).getD .null = .int 2 ∧
        setKey "a.b.c" (.bool true) once = setKey "a.b.c" (.bool true) fields := by
  intro fields
  have hparts : AreParts ["a", "b", "c"] "a.b.c" := areParts_keyParts "a.b.c"
  have hotherParts : AreParts ["a", ""] "a." := areParts_keyParts "a."
  obtain ⟨once, honce, -, -, htwice, happart⟩ :=
    setKey_lens (by decide) (by decide) hparts hotherParts fields .null (.bool true)
  refine ⟨hparts, hotherParts, once, honce, ?_, ?_, htwice⟩
  · cases honce
    rfl
  · rw [happart (by decide) (by decide)]
    rfl

end Json

end GhostText
