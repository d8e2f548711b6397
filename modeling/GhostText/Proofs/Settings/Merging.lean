import GhostText.Proofs.Json.Parts
import GhostText.Proofs.Settings.Lens

/-!
# Values over defaults

A merge holds under every path what the value holds there, joined with the default if both are
objects. Where the value ends in an object short of the path, the merge holds the default; where it
ends in anything else, the merge holds nothing. Merging once more changes nothing.
-/

namespace GhostText.Json

theorem mergeValue_obj (vs ds : Fields) :
    mergeValue (.obj vs) (.obj ds) = .obj (mergeFields vs ds) := rfl

/-- What is there and no object stays, whatever the default. -/
theorem mergeValue_of_not_isObject_left {v : Json} (hv : v.isObject = false) (d : Json) :
    mergeValue v d = v := by
  cases v with
  | obj vs => cases hv
  | _ => cases d <;> rfl

theorem lookupPath_cons_of_not_isObject {v : Json} (hv : v.isObject = false) (k : String)
    (p : List String) : lookupPath (k :: p) v = none := by
  cases v with
  | obj fields => cases hv
  | _ => rfl

theorem everywhere_lookupPath {P : Json → Bool} {v u : Json} (hv : v.everywhere P)
    {p : List String} (h : lookupPath p v = some u) : u.everywhere P := by
  induction p generalizing v with
  | nil =>
    cases h
    exact hv
  | cons k p ih =>
    obtain ⟨fields, rfl⟩ | hobject := v.isObject_cases
    · rw [lookupPath_cons] at h
      obtain ⟨w, hw, h⟩ := Option.bind_eq_some_iff.1 h
      exact ih ((everywhere_obj.1 hv).2 _ (Fields.mem_of_lookup hw)) h
    · rw [lookupPath_cons_of_not_isObject hobject] at h
      cases h

/-! ## How far a path leads -/

/-- Of the path `p` the part `q` leads to a value, `u`, and no longer part from its start does. -/
structure LeadsUpTo (p : List String) (v : Json) (q : List String) (u : Json) : Prop where
  part : q <+: p
  found : lookupPath q v = some u
  longest : ∀ r, r <+: p → (lookupPath r v).isSome → r <+: q

/-- A value with nothing under the first key is as far as a path leads. -/
theorem leadsUpTo_nil {k : String} {v : Json} (h : lookupPath [k] v = none) (p : List String) :
    LeadsUpTo (k :: p) v [] v := by
  refine ⟨List.nil_prefix, rfl, fun r hr hsome => ?_⟩
  cases r with
  | nil => exact List.nil_prefix
  | cons j r =>
    obtain ⟨rfl, -⟩ := List.cons_prefix_cons.1 hr
    have hnone : lookupPath (j :: r) v = none := by
      rw [← List.singleton_append, lookupPath_append, h, Option.bind_none]
    rw [hnone] at hsome
    cases hsome

theorem LeadsUpTo.cons {k : String} {fields : Fields} {w u : Json} {p q : List String}
    (hk : fields.lookup k = some w) (h : LeadsUpTo p w q u) :
    LeadsUpTo (k :: p) (.obj fields) (k :: q) u := by
  have hstep : ∀ r, lookupPath (k :: r) (.obj fields) = lookupPath r w := fun r => by
    rw [lookupPath_cons, hk, Option.bind_some]
  refine ⟨List.cons_prefix_cons.2 ⟨rfl, h.part⟩, (hstep q).trans h.found, fun r hr hsome => ?_⟩
  cases r with
  | nil => exact List.nil_prefix
  | cons j r =>
    obtain ⟨rfl, hrest⟩ := List.cons_prefix_cons.1 hr
    rw [hstep] at hsome
    exact List.cons_prefix_cons.2 ⟨rfl, h.longest r hrest hsome⟩

/-- Every path leads up to some value. -/
theorem exists_leadsUpTo (p : List String) (v : Json) : ∃ q u, LeadsUpTo p v q u := by
  induction p generalizing v with
  | nil => exact ⟨[], v, List.nil_prefix, rfl, fun r hr _ => hr⟩
  | cons k p ih =>
    obtain ⟨fields, rfl⟩ | hv := v.isObject_cases
    · cases hk : fields.lookup k with
      | none => exact ⟨[], _, leadsUpTo_nil (by rw [lookupPath_cons, hk, Option.bind_none]) p⟩
      | some w =>
        obtain ⟨q, u, hq⟩ := ih w
        exact ⟨k :: q, u, hq.cons hk⟩
    · exact ⟨[], v, leadsUpTo_nil (lookupPath_cons_of_not_isObject hv k []) p⟩

/-- A path that leads nowhere leads up to a value that has nothing under the next key. -/
theorem LeadsUpTo.next {p q : List String} {v u : Json} (h : LeadsUpTo p v q u)
    (hp : lookupPath p v = none) : ∃ k r, p = q ++ k :: r ∧ lookupPath [k] u = none := by
  obtain ⟨rest, rfl⟩ := h.part
  cases rest with
  | nil =>
    rw [List.append_nil, h.found] at hp
    cases hp
  | cons k r =>
    refine ⟨k, r, rfl, ?_⟩
    by_contra hk
    have hlonger : (lookupPath (q ++ [k]) v).isSome := by
      rw [lookupPath_append, h.found, Option.bind_some]
      exact Option.isSome_iff_ne_none.2 hk
    have hpart : q ++ [k] <+: q ++ k :: r := (List.prefix_append_right_inj q).2 ⟨r, rfl⟩
    have hlength := (h.longest _ hpart hlonger).length_le
    rw [List.length_append, List.length_singleton] at hlength
    omega

/-! ## What a merge holds -/

section Merge

variable {v d : Json} (hd : d.everywhere hasKeysOnce)
include hd

/-- Where the value holds something, the merge holds it, merged with what is there of the
defaults. -/
theorem lookupPath_mergeValue {p : List String} {u : Json} (h : lookupPath p v = some u) :
    lookupPath p (mergeValue v d) = Option.merge mergeValue (some u) (lookupPath p d) := by
  induction p generalizing v d with
  | nil =>
    cases h
    rfl
  | cons k p ih =>
    obtain ⟨ds, rfl⟩ | hdefault := d.isObject_cases
    · obtain ⟨vs, rfl⟩ | hv := v.isObject_cases
      · obtain ⟨hkeys, hds⟩ := everywhere_obj.1 hd
        rw [lookupPath_cons] at h
        obtain ⟨w, hw, h⟩ := Option.bind_eq_some_iff.1 h
        rw [mergeValue_obj, lookupPath_cons, lookup_mergeFields (of_decide_eq_true hkeys), hw,
          lookupPath_cons]
        cases he : ds.lookup k with
        | none => exact h
        | some e => exact ih (hds _ (Fields.mem_of_lookup he)) h
      · rw [lookupPath_cons_of_not_isObject hv] at h
        cases h
    · rw [mergeValue_of_not_isObject hdefault, h, lookupPath_cons_of_not_isObject hdefault]
      rfl

/-- Where the value ends in an object short of the path, the merge holds what the defaults do. -/
theorem lookupPath_mergeValue_of_object {p q : List String} {fields : Fields}
    (h : LeadsUpTo p v q (.obj fields)) (hp : lookupPath p v = none) :
    lookupPath p (mergeValue v d) = lookupPath p d := by
  obtain ⟨k, r, rfl, hk⟩ := h.next hp
  have hnone : fields.lookup k = none := by
    rw [lookupPath_cons] at hk
    cases hl : fields.lookup k with
    | none => rfl
    | some w =>
      rw [hl] at hk
      cases hk
  have hblank : lookupPath (k :: r) (.obj fields) = none := by
    rw [lookupPath_cons, hnone, Option.bind_none]
  rw [lookupPath_append, lookupPath_append, lookupPath_mergeValue hd h.found]
  cases he : lookupPath q d with
  | none => exact hblank
  | some e =>
    show lookupPath (k :: r) (mergeValue (.obj fields) e) = lookupPath (k :: r) e
    obtain ⟨es, rfl⟩ | hdefault := e.isObject_cases
    · have hes := (everywhere_obj.1 (everywhere_lookupPath hd he)).1
      rw [mergeValue_obj, lookupPath_cons, lookupPath_cons,
        lookup_mergeFields (of_decide_eq_true hes), hnone, Option.merge_none_left]
    · rw [mergeValue_of_not_isObject hdefault, hblank, lookupPath_cons_of_not_isObject hdefault]

/-- Where the value ends in anything else short of the path, the merge holds nothing. -/
theorem lookupPath_mergeValue_of_not_isObject {p q : List String} {u : Json}
    (h : LeadsUpTo p v q u) (hp : lookupPath p v = none) (hu : u.isObject = false) :
    lookupPath p (mergeValue v d) = none := by
  obtain ⟨k, r, rfl, -⟩ := h.next hp
  have hmerge : Option.merge mergeValue (some u) (lookupPath q d) = some u := by
    cases lookupPath q d with
    | none => rfl
    | some e => exact congrArg some (mergeValue_of_not_isObject_left hu e)
  rw [lookupPath_append, lookupPath_mergeValue hd h.found, hmerge, Option.bind_some,
    lookupPath_cons_of_not_isObject hu]

end Merge

/-! ## Merging once more -/

/-- Defaults that are all there already, each taken up in what stands under its key, change
nothing. -/
theorem mergeFields_eq_self {data defaults : Fields}
    (h : ∀ f ∈ defaults, ∃ v, data.lookup f.1 = some v ∧ mergeValue v f.2 = v) :
    mergeFields data defaults = data := by
  induction defaults with
  | nil => rw [mergeFields]
  | cons f defaults ih =>
    obtain ⟨⟨v, hv, hmerge⟩, hrest⟩ := List.forall_mem_cons.1 h
    rw [mergeFields_cons, hv, Option.map_some, Option.getD_some, hmerge, Fields.put_of_lookup hv,
      ih hrest]

/-- Defaults merged with themselves are the defaults. -/
theorem mergeValue_self {d : Json} (hd : d.everywhere hasKeysOnce) : mergeValue d d = d := by
  induction d using Json.induction with
  | scalar d h => exact mergeValue_of_not_isObject (isObject_of_not_isStructured h) d
  | arr items _ => rfl
  | obj ds ih =>
    obtain ⟨hkeys, hds⟩ := everywhere_obj.1 hd
    have hfound : ∀ f ∈ ds, ∃ v, ds.lookup f.1 = some v ∧ mergeValue v f.2 = v := fun f hf =>
      ⟨f.2, Fields.lookup_of_mem (of_decide_eq_true hkeys) hf, ih f hf (hds f hf)⟩
    rw [mergeValue_obj, mergeFields_eq_self hfound]

/-- Merging the same defaults once more changes nothing. -/
theorem mergeValue_mergeValue {d : Json} (hd : d.everywhere hasKeysOnce) (v : Json) :
    mergeValue (mergeValue v d) d = mergeValue v d := by
  induction d using Json.induction generalizing v with
  | scalar d h => exact mergeValue_of_not_isObject (isObject_of_not_isStructured h) _
  | arr items _ => exact mergeValue_of_not_isObject rfl _
  | obj ds ih =>
    obtain ⟨hkeys, hds⟩ := everywhere_obj.1 hd
    obtain ⟨vs, rfl⟩ | hv := v.isObject_cases
    · have hfound : ∀ f ∈ ds, ∃ u, (mergeFields vs ds).lookup f.1 = some u ∧
          mergeValue u f.2 = u := by
        intro f hf
        rw [lookup_mergeFields (of_decide_eq_true hkeys),
          Fields.lookup_of_mem (of_decide_eq_true hkeys) hf]
        cases vs.lookup f.1 with
        | none => exact ⟨f.2, rfl, mergeValue_self (hds f hf)⟩
        | some u => exact ⟨mergeValue u f.2, rfl, ih f hf (hds f hf) u⟩
      rw [mergeValue_obj, mergeValue_obj, mergeFields_eq_self hfound]
    · rw [mergeValue_of_not_isObject_left hv, mergeValue_of_not_isObject_left hv]

/-! ## The whole of it -/

/-- What a merge of members with defaults holds under any path. What was there is kept, or joined
with the default where both are objects; a default is filled in where it is missing in an object;
and there is nothing else. -/
structure Merges (data defaults merged : Fields) : Prop where
  kept : ∀ p v, lookupPath p (.obj data) = some v →
    (∀ vs ds, v = .obj vs → lookupPath p (.obj defaults) ≠ some (.obj ds)) →
    lookupPath p (.obj merged) = some v
  joined : ∀ p vs ds, lookupPath p (.obj data) = some (.obj vs) →
    lookupPath p (.obj defaults) = some (.obj ds) →
    lookupPath p (.obj merged) = some (.obj (mergeFields vs ds))
  filled : ∀ p q fields d, lookupPath p (.obj data) = none →
    LeadsUpTo p (.obj data) q (.obj fields) → lookupPath p (.obj defaults) = some d →
    lookupPath p (.obj merged) = some d
  closed : ∀ p w, lookupPath p (.obj merged) = some w → lookupPath p (.obj data) = none →
    lookupPath p (.obj defaults) = some w ∧ ∃ q fields, LeadsUpTo p (.obj data) q (.obj fields)

/-- Merging keeps what is given, fills in the rest from the defaults, adds nothing else, and has no
more to do a second time. -/
theorem merge_defaults (data : Fields) {defaults : Fields}
    (h : (Json.obj defaults).everywhere hasKeysOnce) :
    Merges data defaults (mergeFields data defaults) ∧
      mergeFields (mergeFields data defaults) defaults = mergeFields data defaults := by
  refine ⟨⟨?_, ?_, ?_, ?_⟩, Json.obj.inj (mergeValue_mergeValue h (.obj data))⟩
  · intro p v hv hobjects
    rw [← mergeValue_obj, lookupPath_mergeValue h hv]
    cases hd : lookupPath p (.obj defaults) with
    | none => rfl
    | some d =>
      refine congrArg some ?_
      obtain ⟨vs, rfl⟩ | hvalue := v.isObject_cases
      · obtain ⟨ds, rfl⟩ | hdefault := d.isObject_cases
        · exact absurd hd (hobjects vs ds rfl)
        · exact mergeValue_of_not_isObject hdefault _
      · exact mergeValue_of_not_isObject_left hvalue d
  · intro p vs ds hv hd
    rw [← mergeValue_obj, lookupPath_mergeValue h hv, hd]
    rfl
  · intro p q fields d hnone hq hd
    rw [← mergeValue_obj, lookupPath_mergeValue_of_object h hq hnone, hd]
  · intro p w hw hnone
    rw [← mergeValue_obj] at hw
    obtain ⟨q, u, hq⟩ := exists_leadsUpTo p (.obj data)
    obtain ⟨fields, rfl⟩ | hu := u.isObject_cases
    · rw [lookupPath_mergeValue_of_object h hq hnone] at hw
      exact ⟨hw, q, fields, hq⟩
    · rw [lookupPath_mergeValue_of_not_isObject h hq hnone hu] at hw
      cases hw

/-- A null and a number hold their places against defaults, and nothing of the defaults comes in
below the number. -/
theorem merge_defaults_nested :
    let data : Fields := [("a", .obj [("b", .null)]), ("n", .int 1)]
    let defaults : Fields := [("a", .obj [("b", .int 7), ("c", .obj [("d", .int 2)])]),
      ("n", .obj [("m", .int 3)])]
    (Json.obj defaults).everywhere hasKeysOnce = true ∧
      lookupPath ["a", "b"] (.obj (mergeFields data defaults)) = some .null ∧
      lookupPath ["a", "c", "d"] (.obj (mergeFields data defaults)) = some (.int 2) ∧
      lookupPath ["n", "m"] (.obj (mergeFields data defaults)) = none ∧
      mergeFields (mergeFields data defaults) defaults = mergeFields data defaults := by
  intro data defaults
  have hdefaults : (Json.obj defaults).everywhere hasKeysOnce = true := by decide
  obtain ⟨hmerges, htwice⟩ := merge_defaults data hdefaults
  have hupTo : LeadsUpTo ["a", "c", "d"] (.obj data) ["a"] (.obj [("b", .null)]) :=
    (leadsUpTo_nil rfl ["d"]).cons rfl
  refine ⟨hdefaults, hmerges.kept _ _ rfl (fun vs ds hv => nomatch hv),
    hmerges.filled _ _ _ _ rfl hupTo rfl, ?_, htwice⟩
  by_contra hsome
  obtain ⟨w, hw⟩ := Option.ne_none_iff_exists'.1 hsome
  obtain ⟨-, q, fields, hq⟩ := hmerges.closed _ w hw rfl
  obtain rfl | ⟨t, rfl, rfl | rfl⟩ : q = [] ∨ ∃ t, q = "n" :: t ∧ (t = [] ∨ t = ["m"]) := by
    simpa [List.prefix_cons_iff] using hq.part
  · have hlonger := hq.longest ["n"] (by decide) rfl
    exact absurd hlonger (by decide)
  · exact nomatch hq.found
  · exact nomatch hq.found

end GhostText.Json
