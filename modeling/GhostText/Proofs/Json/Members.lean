import GhostText.Json.Path
import GhostText.Proofs.Json.Layout
import Mathlib.Data.List.Nodup

/-!
# Members under their keys

Putting a member keeps the keys apart. Members put over others are found in place of them, and over
members with the same keys they are all that is left. Merging puts one default after the other:
itself where its key is missing, else merged with what is there.
-/

namespace GhostText

namespace Fields

variable {fs ds : Fields}

theorem keys_cons (f : String × Json) (fs : Fields) : keys (f :: fs) = f.1 :: fs.keys := rfl

theorem lookup_eq_none_iff {key : String} : fs.lookup key = none ↔ key ∉ fs.keys := by
  simp only [List.lookup_eq_none_iff, keys, List.mem_map, bne_iff_ne, ne_eq, not_exists, not_and]
  exact ⟨fun h f hf he => h f hf he.symm, fun h f hf he => h f hf he.symm⟩

theorem exists_lookup {key : String} (h : key ∈ fs.keys) : ∃ v, fs.lookup key = some v :=
  Option.ne_none_iff_exists'.1 fun e => lookup_eq_none_iff.1 e h

theorem mem_of_lookup {key : String} {v : Json} (h : fs.lookup key = some v) : (key, v) ∈ fs := by
  obtain ⟨before, after, rfl, -⟩ := List.lookup_eq_some_iff.1 h
  exact List.mem_append_right _ List.mem_cons_self

/-- Where no key stands twice, every member is found under its key. -/
theorem lookup_of_mem (h : fs.keys.Nodup) {f : String × Json} (hf : f ∈ fs) :
    fs.lookup f.1 = some f.2 := by
  induction fs with
  | nil => cases hf
  | cons g fs ih =>
    obtain ⟨hg, hfs⟩ := List.nodup_cons.1 h
    rcases List.mem_cons.1 hf with rfl | hf
    · exact List.lookup_cons_self
    · have hne : f.1 ≠ g.1 := fun he => hg (he ▸ List.mem_map_of_mem hf)
      rw [List.lookup_cons, beq_eq_false_iff_ne.2 hne, ih hfs hf]

/-- A member with a new key comes last. -/
theorem keys_put (k : String) (v : Json) (fs : Fields) :
    (put k v fs).keys = if k ∈ fs.keys then fs.keys else fs.keys ++ [k] := by
  induction fs with
  | nil => rfl
  | cons f fs ih =>
    obtain ⟨j, u⟩ := f
    by_cases hj : j = k
    · simp [put, hj, keys_cons]
    · have hk : k ≠ j := Ne.symm hj
      rw [put, if_neg hj, keys_cons, keys_cons, ih]
      by_cases hm : k ∈ keys fs <;> simp [hm, hk]

theorem nodup_keys_put (h : fs.keys.Nodup) (k : String) (v : Json) : (put k v fs).keys.Nodup := by
  rw [keys_put]
  split
  · exact h
  · next hk => exact List.nodup_append_comm.1 (List.nodup_cons.2 ⟨hk, h⟩)

/-- However often a key comes, an object has it once. -/
theorem nodup_keys_ofPairs (pairs : List (String × Json)) : (ofPairs pairs).keys.Nodup := by
  rw [ofPairs]
  have hnil : (keys []).Nodup := List.nodup_nil
  generalize ([] : Fields) = fs at hnil
  induction pairs generalizing fs with
  | nil => exact hnil
  | cons p pairs ih => exact ih _ (nodup_keys_put hnil _ _)

/-- Of members put one after the other each is found under its key, and else what was there. -/
theorem lookup_foldl_put (h : fs.keys.Nodup) (key : String) (ds : Fields) :
    List.lookup key (fs.foldl (fun acc f => put f.1 f.2 acc) ds) =
      (fs.lookup key).or (ds.lookup key) := by
  induction fs generalizing ds with
  | nil => rfl
  | cons f fs ih =>
    obtain ⟨hf, hfs⟩ := List.nodup_cons.1 h
    rw [List.foldl_cons, ih hfs]
    by_cases hk : key = f.1
    · subst hk
      rw [lookup_eq_none_iff.2 hf, Option.none_or, lookup_put_self, List.lookup_cons_self,
        Option.some_or]
    · have hb : (key == f.1) = false := beq_eq_false_iff_ne.2 hk
      rw [lookup_put_other hk, List.lookup_cons, hb]

/-- Of two values for one key the later counts. -/
@[simp] theorem put_put (key : String) (v w : Json) (fields : Fields) :
    put key w (put key v fields) = put key w fields := by
  induction fields with
  | nil => simp [put]
  | cons f fields ih =>
    obtain ⟨k, u⟩ := f
    by_cases h : k = key
    · simp [put, h]
    · simp [put, h, ih]

/-- A member that is there already is put without a change. -/
theorem put_of_lookup {key : String} {v : Json} {fields : Fields}
    (h : fields.lookup key = some v) : put key v fields = fields := by
  induction fields with
  | nil => cases h
  | cons f fields ih =>
    obtain ⟨k, u⟩ := f
    rw [List.lookup_cons] at h
    by_cases hk : k = key
    · subst hk
      rw [beq_self_eq_true, Option.some.injEq] at h
      rw [put, if_pos rfl, h]
    · have hne : (key == k) = false := beq_eq_false_iff_ne.2 fun e => hk e.symm
      rw [hne] at h
      rw [put, if_neg hk, ih h]

/-- A value is put where its key stands. -/
theorem put_append_cons {k : String} (h : k ∉ fs.keys) (v u : Json) (rest : Fields) :
    put k v (fs ++ (k, u) :: rest) = fs ++ (k, v) :: rest := by
  induction fs with
  | nil => simp [put]
  | cons f fs ih =>
    rw [keys_cons, List.mem_cons, not_or] at h
    rw [List.cons_append, put, if_neg (Ne.symm h.1), ih h.2, List.cons_append]

/-- Members put over members with the same keys take their places. -/
theorem foldl_put_of_keys_eq (done : Fields) (hk : fs.keys = ds.keys)
    (h : (keys (done ++ fs)).Nodup) :
    fs.foldl (fun acc f => put f.1 f.2 acc) (done ++ ds) = done ++ fs := by
  induction fs generalizing done ds with
  | nil =>
    obtain rfl : ds = [] := List.map_eq_nil_iff.1 hk.symm
    rfl
  | cons f fs ih =>
    obtain ⟨d, ds, rfl⟩ : ∃ d ds', ds = d :: ds' := by
      cases ds with
      | nil => cases hk
      | cons d ds => exact ⟨d, ds, rfl⟩
    obtain ⟨hkey, hks⟩ := List.cons.inj hk
    obtain ⟨k, u⟩ := d
    obtain rfl : f.1 = k := hkey
    have hdone : f.1 ∉ keys done := by
      rw [keys, List.map_append] at h
      exact fun hm => (List.nodup_append.1 h).2.2 _ hm _ List.mem_cons_self rfl
    rw [List.foldl_cons, put_append_cons hdone]
    have hstep := ih (done ++ [f]) hks (by rwa [List.append_assoc])
    rwa [List.append_assoc, List.append_assoc] at hstep

end Fields

namespace Json

open Fields

/-- Only an object adds anything to what is there. -/
theorem mergeValue_of_not_isObject {d : Json} (hd : d.isObject = false) (v : Json) :
    mergeValue v d = v := by
  cases d with
  | obj ds => cases hd
  | _ => cases v <;> rfl

/-- One default after the other is put in: itself if its key is missing, else merged with what is
there. -/
theorem mergeFields_cons (data : Fields) (k : String) (d : Json) (defaults : Fields) :
    mergeFields data ((k, d) :: defaults) =
      mergeFields (put k (((data.lookup k).map (mergeValue · d)).getD d) data) defaults := by
  rw [mergeFields]
  cases hk : data.lookup k with
  | none =>
    rw [← put_of_not_mem (lookup_eq_none_iff.1 hk)]
    rfl
  | some v => rfl

/-- Merging gives no key twice. -/
theorem nodup_keys_mergeFields {data : Fields} (h : data.keys.Nodup) (defaults : Fields) :
    (mergeFields data defaults).keys.Nodup := by
  induction defaults generalizing data with
  | nil => rwa [mergeFields]
  | cons d defaults ih =>
    rw [mergeFields_cons]
    exact ih (nodup_keys_put h _ _)

/-- A member is merged with the default under its key, and each stands where the other is
missing. -/
theorem lookup_mergeFields {defaults : Fields} (hd : defaults.keys.Nodup) (data : Fields)
    (key : String) : (mergeFields data defaults).lookup key =
      Option.merge mergeValue (data.lookup key) (defaults.lookup key) := by
  induction defaults generalizing data with
  | nil =>
    rw [mergeFields]
    cases data.lookup key <;> rfl
  | cons d defaults ih =>
    obtain ⟨k, d⟩ := d
    obtain ⟨hk, hrest⟩ := List.nodup_cons.1 hd
    rw [mergeFields_cons, ih hrest]
    by_cases h : key = k
    · subst h
      rw [lookup_put_self, lookup_eq_none_iff.2 hk, List.lookup_cons_self]
      cases data.lookup key <;> rfl
    · have hb : (key == k) = false := beq_eq_false_iff_ne.2 h
      rw [lookup_put_other h, List.lookup_cons, hb]

end Json

end GhostText
