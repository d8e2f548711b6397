import GhostText.Settings.Store

/-!
# Keys above and below one another

A value that is put under a key is found there, and so is what lies below the key in it. What lies
above the key becomes another object if the value is another one, and everything else stays as it
was, also where something that was no object has made way for one.
-/

namespace GhostText.Json

/-- The path of a dotted key; that of the empty key leads nowhere but to the whole. -/
def pathOf (key : String) : List String := if key.isEmpty then [] else keyParts key

/-- To look a key up is to follow its parts. -/
theorem getKey?_eq_lookupPath (key : String) (v : Json) :
    getKey? key v = lookupPath (pathOf key) v := by
  unfold getKey? pathOf
  split <;> rfl

theorem pathOf_ne_nil {key : String} (h : key ≠ "") : pathOf key ≠ [] := by
  have hne : ¬ key.isEmpty = true := by simpa using h
  rw [pathOf, if_neg hne, keyParts]
  exact List.cons_ne_nil _ _

theorem setKey_eq_ok {key : String} (h : key ≠ "") (v : Json) (fields : Fields) :
    setKey key v fields = .ok (putPath v (pathOf key) fields) := by
  have hne : ¬ key.isEmpty = true := by simpa using h
  rw [setKey, if_neg hne, pathOf, if_neg hne]

/-- A path is followed part by part. -/
theorem lookupPath_append (p r : List String) (v : Json) :
    lookupPath (p ++ r) v = (lookupPath p v).bind (lookupPath r) := by
  induction p generalizing v with
  | nil => rfl
  | cons k p ih =>
    cases v with
    | obj fields =>
      simp only [List.cons_append, lookupPath]
      cases fields.lookup k with
      | none => rfl
      | some v => exact ih v
    | _ => rfl

theorem lookupPath_cons (k : String) (p : List String) (fields : Fields) :
    lookupPath (k :: p) (.obj fields) = (fields.lookup k).bind (lookupPath p) := by
  rw [lookupPath]
  cases fields.lookup k <;> rfl

/-! ## What is put under a key -/

/-- The members of what stands at a place, if it is an object. -/
def membersOf : Option Json → Fields
  | some (.obj fields) => fields
  | _ => []

/-- What is no object has as much under a path as an object without members. -/
theorem lookupPath_membersOf {p : List String} (hp : p ≠ []) (place : Option Json) :
    lookupPath p (.obj (membersOf place)) = place.bind (lookupPath p) := by
  obtain ⟨k, p, rfl⟩ := List.exists_cons_of_ne_nil hp
  cases place with
  | none => rfl
  | some v => cases v <;> rfl

theorem membersOf_lookupPath (p : List String) (place : Option Json) :
    membersOf (lookupPath p (.obj (membersOf place))) = membersOf (place.bind (lookupPath p)) := by
  cases p with
  | nil => cases place <;> rfl
  | cons k p => rw [lookupPath_membersOf (List.cons_ne_nil k p)]

/-- To put a value under a path is to put it, in its objects, under the first part. -/
theorem putPath_cons (value : Json) (k : String) {r : List String} (hr : r ≠ [])
    (fields : Fields) : putPath value (k :: r) fields =
      Fields.put k (.obj (putPath value r (membersOf (fields.lookup k)))) fields := by
  obtain ⟨l, r, rfl⟩ := List.exists_cons_of_ne_nil hr
  rfl

/-- Above a key stands an object, with what was put under the rest of the key. -/
theorem lookupPath_putPath_above (value : Json) (p : List String) {r : List String} (hr : r ≠ [])
    (fields : Fields) : lookupPath p (.obj (putPath value (p ++ r) fields)) =
      some (.obj (putPath value r (membersOf (lookupPath p (.obj fields))))) := by
  induction p generalizing fields with
  | nil => rfl
  | cons k p ih =>
    have hne : p ++ r ≠ [] := by simp [hr]
    rw [List.cons_append, putPath_cons value k hne, lookupPath_cons, Fields.lookup_put_self,
      Option.bind_some, ih, membersOf_lookupPath, lookupPath_cons]

/-- At a key and below it is what was put there. -/
theorem lookupPath_putPath_below (value : Json) {q : List String} (hq : q ≠ [])
    (r : List String) (fields : Fields) :
    lookupPath (q ++ r) (.obj (putPath value q fields)) = lookupPath r value := by
  induction q generalizing fields with
  | nil => exact absurd rfl hq
  | cons k q ih =>
    rw [List.cons_append, lookupPath_cons]
    cases q with
    | nil => rw [putPath, Fields.lookup_put_self, Option.bind_some, List.nil_append]
    | cons l q =>
      have hne : l :: q ≠ [] := List.cons_ne_nil l q
      rw [putPath_cons value k hne, Fields.lookup_put_self, Option.bind_some, ih hne]

/-- What lies neither above nor below a key stays as it was. -/
theorem lookupPath_putPath_apart (value : Json) {p q : List String} (hpq : ¬ p <+: q)
    (hqp : ¬ q <+: p) (fields : Fields) :
    lookupPath p (.obj (putPath value q fields)) = lookupPath p (.obj fields) := by
  induction q generalizing p fields with
  | nil => exact absurd List.nil_prefix hqp
  | cons k q ih =>
    cases p with
    | nil => exact absurd List.nil_prefix hpq
    | cons j p =>
      rw [lookupPath_cons, lookupPath_cons]
      by_cases hjk : j = k
      · subst hjk
        rw [List.cons_prefix_cons] at hpq hqp
        have hp : p ≠ [] := by rintro rfl; exact hpq ⟨rfl, List.nil_prefix⟩
        have hq : q ≠ [] := by rintro rfl; exact hqp ⟨rfl, List.nil_prefix⟩
        rw [putPath_cons value j hq, Fields.lookup_put_self, Option.bind_some,
          ih (fun h => hpq ⟨rfl, h⟩) (fun h => hqp ⟨rfl, h⟩), lookupPath_membersOf hp]
      · cases q with
        | nil => rw [putPath, Fields.lookup_put_other hjk]
        | cons l q =>
          rw [putPath_cons value k (List.cons_ne_nil l q), Fields.lookup_put_other hjk]

/-! ## What is another value -/

/-- An object is the same as no other kind of value. -/
theorem not_same_object {v : Json} (hv : ∀ fields, v ≠ .obj fields) (fields : Fields) :
    v.same (.obj fields) = false := by
  cases v with
  | obj fs => exact absurd rfl (hv fs)
  | float x => cases x <;> rfl
  | _ => rfl

/-- Of two objects that are the same each member of one is found in the other. -/
theorem same_of_sameFields {xs ys : Fields} (h : sameFields xs ys) {k : String} {v : Json}
    (hk : xs.lookup k = some v) : ∃ w, ys.lookup k = some w ∧ v.same w := by
  induction xs with
  | nil => cases hk
  | cons x xs ih =>
    obtain ⟨j, u⟩ := x
    rw [sameFields, Bool.and_eq_true] at h
    rw [List.lookup_cons] at hk
    split at hk
    · next hj =>
      obtain rfl := eq_of_beq hj
      cases hk
      cases hw : ys.lookup k with
      | none => simp [hw] at h
      | some w => exact ⟨w, rfl, by simpa [hw] using h.1⟩
    · exact ih h.2 hk

theorem length_put_of_lookup_eq_none {k : String} {fields : Fields} (h : fields.lookup k = none)
    (v : Json) : (Fields.put k v fields).length = fields.length + 1 := by
  induction fields with
  | nil => rfl
  | cons f fields ih =>
    obtain ⟨j, u⟩ := f
    rw [List.lookup_cons] at h
    split at h
    · cases h
    · next hj =>
      have hne : j ≠ k := fun e => by simp [e] at hj
      rw [Fields.put, if_neg hne, List.length_cons, ih h, List.length_cons]

/-- An object in which a member was put is another one if the member is. -/
theorem not_same_put {k : String} {v : Json} {fields : Fields}
    (h : Store.sameValue (fields.lookup k) (some v) = false) :
    (Json.obj fields).same (.obj (Fields.put k v fields)) = false := by
  rw [same, Bool.and_eq_false_iff]
  cases hk : fields.lookup k with
  | none =>
    rw [length_put_of_lookup_eq_none hk]
    exact .inl (by simp)
  | some u =>
    refine .inr (Bool.eq_false_iff.2 fun hsame => ?_)
    obtain ⟨w, hw, huw⟩ := same_of_sameFields hsame hk
    rw [Fields.lookup_put_self] at hw
    cases hw
    rw [hk, Store.sameValue, huw] at h
    cases h

/-- An object in which something was put is another one if what was put is. -/
theorem not_same_putPath {value : Json} {r : List String} (hr : r ≠ []) {fields : Fields}
    (h : Store.sameValue (lookupPath r (.obj fields)) (some value) = false) :
    (Json.obj fields).same (.obj (putPath value r fields)) = false := by
  induction r generalizing fields with
  | nil => exact absurd rfl hr
  | cons k r ih =>
    rw [lookupPath_cons] at h
    cases r with
    | nil =>
      refine not_same_put ?_
      cases hk : fields.lookup k <;> simpa [hk, lookupPath] using h
    | cons l ks =>
      have hne : l :: ks ≠ [] := List.cons_ne_nil l ks
      rw [putPath_cons value k hne]
      refine not_same_put ?_
      cases hk : fields.lookup k with
      | none => rfl
      | some u =>
        rw [hk] at h
        cases u with
        | obj inner => exact ih hne h
        | _ => exact not_same_object (by simp) _

/-- Whatever stands above a key is another value once the value under the key is. -/
theorem not_same_above {value : Json} (p : List String) {r : List String} (hr : r ≠ [])
    {fields : Fields}
    (h : Store.sameValue (lookupPath (p ++ r) (.obj fields)) (some value) = false) :
    Store.sameValue (lookupPath p (.obj fields))
      (lookupPath p (.obj (putPath value (p ++ r) fields))) = false := by
  rw [lookupPath_putPath_above value p hr]
  rw [lookupPath_append] at h
  cases hp : lookupPath p (.obj fields) with
  | none => rfl
  | some v =>
    rw [hp] at h
    cases v with
    | obj inner => exact not_same_putPath hr h
    | _ => exact not_same_object (by simp) _

end GhostText.Json
