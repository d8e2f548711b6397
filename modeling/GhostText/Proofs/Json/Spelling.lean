import GhostText.Proofs.Json.Numbers
import GhostText.Proofs.Json.Texts

/-!
# What the reader reads

`Spells` says which texts are a value: the scalars as they are written, the items and the members
with blank gaps between any two parts. The reader reads every such text as its value, with as much
fuel as the text has characters, and leaves what follows.
-/

namespace GhostText.Json

/-- Characters that may stand between two parts of a text and count for nothing. -/
def Gap (cs : List Char) : Prop := ∀ c ∈ cs, isSpace c

mutual

/-- The texts of a value. -/
inductive Spells : Json → List Char → Prop where
  | null : Spells .null "null".toList
  | true_ : Spells (.bool true) "true".toList
  | false_ : Spells (.bool false) "false".toList
  | int {n : Int} (h : (Nat.toDigits 10 n.natAbs).length ≤ Text.digitLimit) :
      Spells (.int n) (Text.writeInteger n)
  | str (ascii : Bool) (s : String) : Spells (.str s) (writeText ascii s)
  | noItems {g : List Char} (hg : Gap g) : Spells (.arr []) ('[' :: (g ++ [']']))
  | arr {items : List Json} {g cs : List Char} (hg : Gap g) (h : SpellsItems items cs) :
      Spells (.arr items) ('[' :: (g ++ cs))
  | noMembers {g : List Char} (hg : Gap g) : Spells (.obj []) ('{' :: (g ++ ['}']))
  | obj {fields : Fields} {g cs : List Char} (hg : Gap g) (hn : fields.keys.Nodup)
      (h : SpellsMembers fields cs) : Spells (.obj fields) ('{' :: (g ++ cs))

/-- The texts of the items of an array that has some, with the closing bracket. -/
inductive SpellsItems : List Json → List Char → Prop where
  | last {v : Json} {cs g : List Char} (h : Spells v cs) (hg : Gap g) :
      SpellsItems [v] (cs ++ (g ++ [']']))
  | more {v : Json} {vs : List Json} {cs g₁ g₂ ds : List Char} (h : Spells v cs) (h₁ : Gap g₁)
      (h₂ : Gap g₂) (hs : SpellsItems vs ds) :
      SpellsItems (v :: vs) (cs ++ (g₁ ++ ',' :: (g₂ ++ ds)))

/-- The texts of the members of an object that has some, with the closing brace. -/
inductive SpellsMembers : List (String × Json) → List Char → Prop where
  | last {v : Json} {g₁ g₂ cs g₃ : List Char} (ascii : Bool) (k : String) (h₁ : Gap g₁)
      (h₂ : Gap g₂) (h : Spells v cs) (h₃ : Gap g₃) :
      SpellsMembers [(k, v)] (writeText ascii k ++ (g₁ ++ ':' :: (g₂ ++ (cs ++ (g₃ ++ ['}'])))))
  | more {v : Json} {fs : List (String × Json)} {g₁ g₂ cs g₃ g₄ ds : List Char} (ascii : Bool)
      (k : String) (h₁ : Gap g₁) (h₂ : Gap g₂) (h : Spells v cs) (h₃ : Gap g₃) (h₄ : Gap g₄)
      (hs : SpellsMembers fs ds) :
      SpellsMembers ((k, v) :: fs)
        (writeText ascii k ++ (g₁ ++ ':' :: (g₂ ++ (cs ++ (g₃ ++ ',' :: (g₄ ++ ds))))))

end

/-! ## Gaps -/

section Gaps

variable {gap cs : List Char} {c : Char}

theorem gap_nil : Gap [] := by simp [Gap]

/-- A gap is skipped. -/
theorem skipSpace_gap (hg : Gap gap) (cs : List Char) : skipSpace (gap ++ cs) = skipSpace cs :=
  List.dropWhile_append_of_pos hg

theorem skipSpace_cons (h : isSpace c = false) : skipSpace (c :: cs) = c :: cs := by
  simp [skipSpace, h]

theorem ends_of_isSpace (h : isSpace c) (cs : List Char) : Ends (c :: cs) := by
  refine ends_cons ?_ cs
  simp only [isSpace, Bool.or_eq_true, decide_eq_true_eq] at h
  rcases h with ((rfl | rfl) | rfl) | rfl <;> decide

/-- A number ends where a gap begins. -/
theorem ends_gap (hg : Gap gap) (h : Ends cs) : Ends (gap ++ cs) := by
  cases gap with
  | nil => exact h
  | cons c gap => exact ends_of_isSpace (hg c List.mem_cons_self) _

end Gaps

/-! ## How a value starts -/

/-- The characters a value may start with. -/
def isOpening (c : Char) : Bool :=
  c.isDigit || ['"', '[', '{', '-', 'n', 't', 'f'].contains c

theorem not_isSpace_of_isOpening {c : Char} (h : isOpening c) : isSpace c = false := by
  by_contra hs
  simp only [isSpace, Bool.not_eq_false, Bool.or_eq_true, decide_eq_true_eq] at hs
  rcases hs with ((rfl | rfl) | rfl) | rfl <;> contradiction

theorem writeInteger_head (n : Int) :
    ∃ c t, Text.writeInteger n = c :: t ∧ (c = '-' ∨ c.isDigit) := by
  obtain ⟨c, t, he⟩ := List.exists_cons_of_ne_nil
    (Nat.toDigits_ne_nil : Nat.toDigits 10 n.natAbs ≠ [])
  rw [Text.writeInteger]
  split
  · exact ⟨'-', _, rfl, .inl rfl⟩
  · exact ⟨c, t, he, .inr (Text.isDigit_of_mem_toDigits (he ▸ List.mem_cons_self))⟩

/-- The text of a value starts with a character that opens one. -/
theorem Spells.head {v : Json} {cs : List Char} (h : Spells v cs) :
    ∃ c t, cs = c :: t ∧ isOpening c := by
  cases h with
  | null => exact ⟨'n', "ull".toList, rfl, rfl⟩
  | true_ => exact ⟨'t', "rue".toList, rfl, rfl⟩
  | false_ => exact ⟨'f', "alse".toList, rfl, rfl⟩
  | @int n h =>
    obtain ⟨c, t, he, hc⟩ := writeInteger_head n
    refine ⟨c, t, he, ?_⟩
    rcases hc with rfl | hc
    · rfl
    · simp [isOpening, hc]
  | str ascii s => exact ⟨'"', _, rfl, rfl⟩
  | noItems hg => exact ⟨'[', _, rfl, rfl⟩
  | arr hg h => exact ⟨'[', _, rfl, rfl⟩
  | noMembers hg => exact ⟨'{', _, rfl, rfl⟩
  | obj hg hn h => exact ⟨'{', _, rfl, rfl⟩

theorem SpellsItems.head {vs : List Json} {cs : List Char} (h : SpellsItems vs cs) :
    ∃ c t, cs = c :: t ∧ isOpening c := by
  cases h with
  | last h hg =>
    obtain ⟨c, t, rfl, hc⟩ := h.head
    exact ⟨c, _, rfl, hc⟩
  | more h hg hg' hs =>
    obtain ⟨c, t, rfl, hc⟩ := h.head
    exact ⟨c, _, rfl, hc⟩

theorem SpellsMembers.head {fs : List (String × Json)} {cs : List Char} (h : SpellsMembers fs cs) :
    ∃ c t, cs = c :: t ∧ isOpening c := by
  cases h with
  | last => exact ⟨'"', _, rfl, rfl⟩
  | more => exact ⟨'"', _, rfl, rfl⟩

/-- A gap ends where a value starts. -/
theorem skipSpace_gap_opening {g cs : List Char} (hg : Gap g)
    (h : ∃ c t, cs = c :: t ∧ isOpening c) (rest : List Char) :
    skipSpace (g ++ (cs ++ rest)) = cs ++ rest := by
  obtain ⟨c, t, rfl, hc⟩ := h
  rw [skipSpace_gap hg]
  exact skipSpace_cons (not_isSpace_of_isOpening hc)

/-! ## One equation for each thing the reader can do -/

section Steps

variable {fuel : Nat} {g cs t rest : List Char} {c : Char} {v : Json} {k : String}

/-- What starts with neither a quote nor a bracket is read as a scalar. -/
theorem readValue_scalar (hq : c ≠ '"') (hb : c ≠ '[') (hc : c ≠ '{') :
    readValue (fuel + 1) (c :: t) = readScalar (c :: t) := by
  rw [readValue]
  all_goals simp_all

theorem readValue_noItems (hg : Gap g) :
    readValue (fuel + 1) ('[' :: (g ++ ']' :: rest)) = .ok (.arr [], rest) := by
  have hb : skipSpace (g ++ ']' :: rest) = ']' :: rest :=
    (skipSpace_gap hg _).trans (skipSpace_cons rfl)
  simp only [readValue, hb]

theorem readValue_noMembers (hg : Gap g) :
    readValue (fuel + 1) ('{' :: (g ++ '}' :: rest)) = .ok (.obj [], rest) := by
  have hb : skipSpace (g ++ '}' :: rest) = '}' :: rest :=
    (skipSpace_gap hg _).trans (skipSpace_cons rfl)
  simp only [readValue, hb]

/-- What stands behind a bracket is read as items, unless the bracket closes. -/
theorem readValue_items (hg : Gap g) (h : ∃ c t, cs = c :: t ∧ isOpening c) :
    readValue (fuel + 1) ('[' :: (g ++ (cs ++ rest))) =
      (readItems fuel (cs ++ rest)).map fun r => (.arr r.1, r.2) := by
  have hb := skipSpace_gap_opening hg h rest
  obtain ⟨c, t, rfl, hc⟩ := h
  rw [readValue, hb]
  split
  · next e =>
    rw [(List.cons.inj e).1] at hc
    contradiction
  · rfl

theorem readValue_members (hg : Gap g) (h : ∃ c t, cs = c :: t ∧ isOpening c) :
    readValue (fuel + 1) ('{' :: (g ++ (cs ++ rest))) =
      (readMembers fuel (cs ++ rest)).map fun r => (.obj (Fields.ofPairs r.1), r.2) := by
  have hb := skipSpace_gap_opening hg h rest
  obtain ⟨c, t, rfl, hc⟩ := h
  rw [readValue, hb]
  split
  · next e =>
    rw [(List.cons.inj e).1] at hc
    contradiction
  · rfl

theorem readItems_last (h : readValue fuel cs = .ok (v, rest)) (hr : skipSpace rest = ']' :: t) :
    readItems (fuel + 1) cs = .ok ([v], t) := by
  simp only [readItems, h, hr]

/-- Behind a comma another item is read. -/
theorem readItems_more (h : readValue fuel cs = .ok (v, rest)) (hr : skipSpace rest = ',' :: t) :
    readItems (fuel + 1) cs =
      (readItems fuel (skipSpace t)).map fun r => (v :: r.1, r.2) := by
  simp only [readItems, h, hr]

section Members

variable {r₀ r₁ r₂ : List Char} (hk : readText ('"' :: cs) cs = .ok (k, r₀))
  (hc : skipSpace r₀ = ':' :: r₁) (hv : readValue fuel (skipSpace r₁) = .ok (v, r₂))
include hk hc hv

theorem readMembers_last (hr : skipSpace r₂ = '}' :: t) :
    readMembers (fuel + 1) ('"' :: cs) = .ok ([(k, v)], t) := by
  simp only [readMembers, hk, hc, hv, hr]

theorem readMembers_more (hr : skipSpace r₂ = ',' :: t) :
    readMembers (fuel + 1) ('"' :: cs) =
      (readMembers fuel (skipSpace t)).map fun r => ((k, v) :: r.1, r.2) := by
  simp only [readMembers, hk, hc, hv, hr]

end Members

end Steps

/-- The text of a key is read up to its closing quote. -/
theorem readText_key (ascii : Bool) (k : String) (rest : List Char) :
    ∃ cs, writeText ascii k ++ rest = '"' :: cs ∧
      readText ('"' :: cs) cs = .ok (k, rest) := by
  refine ⟨k.toList.flatMap (writeChar ascii) ++ '"' :: rest, ?_, readText_writeText ascii _ _ k⟩
  simp [writeText]

/-! ## Members with different keys -/

theorem put_of_not_mem {k : String} {fs : Fields} (h : k ∉ fs.keys) (v : Json) :
    fs.put k v = fs ++ [(k, v)] := by
  induction fs with
  | nil => rfl
  | cons f fs ih =>
    simp only [Fields.keys, List.map_cons, List.mem_cons, not_or] at h
    rw [Fields.put, if_neg (Ne.symm h.1), ih h.2, List.cons_append]

/-- Members with different keys are put one behind the other. -/
theorem foldl_put {pairs acc : Fields} (h : (Fields.keys (acc ++ pairs)).Nodup) :
    pairs.foldl (fun fs p => fs.put p.1 p.2) acc = acc ++ pairs := by
  induction pairs generalizing acc with
  | nil => simp
  | cons p pairs ih =>
    have hk : p.1 ∉ acc.keys := by
      simp only [Fields.keys, List.map_append, List.map_cons] at h
      exact fun hm => (List.nodup_append.1 h).2.2 _ hm _ List.mem_cons_self rfl
    rw [List.foldl_cons, put_of_not_mem hk, ih, List.append_assoc, List.singleton_append]
    rwa [List.append_assoc, List.singleton_append]

/-- Members with different keys are an object as they stand. -/
theorem ofPairs_eq_self {fs : Fields} (h : fs.keys.Nodup) : Fields.ofPairs fs = fs := foldl_put h

/-! ## Reading a text of a value -/

mutual

/-- The reader reads every text of a value, and leaves what follows. -/
theorem Spells.read {v : Json} {cs : List Char} (h : Spells v cs) {fuel : Nat} {rest : List Char}
    (hf : cs.length ≤ fuel) (hr : Ends rest) : readValue fuel (cs ++ rest) = .ok (v, rest) := by
  obtain ⟨fuel, rfl⟩ : ∃ f, fuel = f + 1 := by
    obtain ⟨c, t, rfl, -⟩ := h.head
    exact ⟨fuel - 1, by simp at hf; omega⟩
  match h with
  | .null => rfl
  | .true_ => rfl
  | .false_ => rfl
  | @Spells.int n hn =>
    rw [← readScalar_writeInteger hn hr]
    obtain ⟨c, t, he, hc⟩ := writeInteger_head n
    rw [he]
    refine readValue_scalar ?_ ?_ ?_ <;> rintro rfl <;> simp at hc
  | .str ascii s =>
    obtain ⟨cs, he, hk⟩ := readText_key ascii s rest
    rw [he, readValue, hk]
    rfl
  | @Spells.noItems g hg =>
    rw [List.cons_append, List.append_assoc]
    exact readValue_noItems hg
  | @Spells.arr items g cs hg hs =>
    have hi : readItems fuel (cs ++ rest) = .ok (items, rest) := hs.read (by simp at hf; omega)
    rw [List.cons_append, List.append_assoc, readValue_items hg hs.head, hi]
    rfl
  | @Spells.noMembers g hg =>
    rw [List.cons_append, List.append_assoc]
    exact readValue_noMembers hg
  | @Spells.obj fields g cs hg hn hs =>
    have hi : readMembers fuel (cs ++ rest) = .ok (fields, rest) := hs.read (by simp at hf; omega)
    rw [List.cons_append, List.append_assoc, readValue_members hg hs.head, hi]
    exact congrArg (fun fs => Except.ok (obj fs, rest)) (ofPairs_eq_self hn)

/-- Items in any of their texts are read as they are. -/
theorem SpellsItems.read {vs : List Json} {cs : List Char} (h : SpellsItems vs cs) {fuel : Nat}
    {rest : List Char} (hf : cs.length ≤ fuel) :
    readItems fuel (cs ++ rest) = .ok (vs, rest) := by
  match h with
  | @SpellsItems.last v cs g hv hg =>
    obtain ⟨fuel, rfl⟩ : ∃ f, fuel = f + 1 := ⟨fuel - 1, by simp at hf; omega⟩
    have he : Ends (g ++ ']' :: rest) := ends_gap hg (ends_cons (by decide) rest)
    have hi := hv.read (show cs.length ≤ fuel by simp at hf; omega) he
    simp only [List.append_assoc, List.cons_append, List.nil_append]
    exact readItems_last hi ((skipSpace_gap hg _).trans (skipSpace_cons rfl))
  | @SpellsItems.more v vs cs g₁ g₂ ds hv h₁ h₂ hs =>
    obtain ⟨fuel, rfl⟩ : ∃ f, fuel = f + 1 := ⟨fuel - 1, by simp at hf; omega⟩
    have he : Ends (g₁ ++ ',' :: (g₂ ++ (ds ++ rest))) := ends_gap h₁ (ends_cons (by decide) _)
    have hi := hv.read (show cs.length ≤ fuel by simp at hf; omega) he
    have hj : readItems fuel (ds ++ rest) = .ok (vs, rest) := hs.read (by simp at hf; omega)
    simp only [List.append_assoc, List.cons_append]
    rw [readItems_more hi ((skipSpace_gap h₁ _).trans (skipSpace_cons rfl)),
      skipSpace_gap_opening h₂ hs.head, hj]
    rfl

theorem SpellsMembers.read {fs : List (String × Json)} {cs : List Char} (h : SpellsMembers fs cs)
    {fuel : Nat} {rest : List Char} (hf : cs.length ≤ fuel) :
    readMembers fuel (cs ++ rest) = .ok (fs, rest) := by
  match h with
  | @SpellsMembers.last v g₁ g₂ cs g₃ ascii k h₁ h₂ hv h₃ =>
    obtain ⟨fuel, rfl⟩ : ∃ f, fuel = f + 1 := ⟨fuel - 1, by simp at hf; omega⟩
    have he : Ends (g₃ ++ '}' :: rest) := ends_gap h₃ (ends_cons (by decide) rest)
    have hi := skipSpace_gap_opening h₂ hv.head _ ▸
      hv.read (show cs.length ≤ fuel by simp at hf; omega) he
    simp only [List.append_assoc, List.cons_append, List.nil_append]
    obtain ⟨es, hk, hq⟩ := readText_key ascii k (g₁ ++ ':' :: (g₂ ++ (cs ++ (g₃ ++ '}' :: rest))))
    rw [hk]
    exact readMembers_last hq ((skipSpace_gap h₁ _).trans (skipSpace_cons rfl)) hi
      ((skipSpace_gap h₃ _).trans (skipSpace_cons rfl))
  | @SpellsMembers.more v fs g₁ g₂ cs g₃ g₄ ds ascii k h₁ h₂ hv h₃ h₄ hs =>
    obtain ⟨fuel, rfl⟩ : ∃ f, fuel = f + 1 := ⟨fuel - 1, by simp at hf; omega⟩
    have he : Ends (g₃ ++ ',' :: (g₄ ++ (ds ++ rest))) := ends_gap h₃ (ends_cons (by decide) _)
    have hi := skipSpace_gap_opening h₂ hv.head _ ▸
      hv.read (show cs.length ≤ fuel by simp at hf; omega) he
    have hj : readMembers fuel (ds ++ rest) = .ok (fs, rest) := hs.read (by simp at hf; omega)
    simp only [List.append_assoc, List.cons_append]
    obtain ⟨es, hk, hq⟩ :=
      readText_key ascii k (g₁ ++ ':' :: (g₂ ++ (cs ++ (g₃ ++ ',' :: (g₄ ++ (ds ++ rest))))))
    rw [hk, readMembers_more hq ((skipSpace_gap h₁ _).trans (skipSpace_cons rfl)) hi
      ((skipSpace_gap h₃ _).trans (skipSpace_cons rfl)), skipSpace_gap_opening h₄ hs.head, hj]
    rfl

end

end GhostText.Json
