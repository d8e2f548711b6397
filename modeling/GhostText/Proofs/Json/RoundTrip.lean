import GhostText.Proofs.Json.Spelling

/-!
# Values written and read

A plain value is one that is made of what every reader keeps: no binary fractions, no integer too
long to be read, no key twice. What is written for it on a line is one of its texts, so reading
gives it back.
-/

namespace GhostText.Json

mutual

/-- Values without floating-point numbers, whose integers are within the limit of digits and whose
objects have no key twice. -/
def isPlain : Json → Bool
  | .null => true
  | .bool _ => true
  | .int n => (Nat.toDigits 10 n.natAbs).length ≤ Text.digitLimit
  | .float _ => false
  | .str _ => true
  | .arr items => arePlain items
  | .obj fields => decide (Fields.keys fields).Nodup && arePlainMembers fields

def arePlain : List Json → Bool
  | [] => true
  | v :: rest => isPlain v && arePlain rest

def arePlainMembers : List (String × Json) → Bool
  | [] => true
  | (_, v) :: rest => isPlain v && arePlainMembers rest

end

/-- No text of a value starts with a byte order mark. -/
theorem head?_ne_mark {g cs : List Char} (hg : Gap g) (h : ∃ c t, cs = c :: t ∧ isOpening c)
    (rest : List Char) : (g ++ (cs ++ rest)).head? ≠ some (Char.ofNat 0xfeff) := by
  obtain ⟨c, t, rfl, hc⟩ := h
  cases g with
  | nil =>
    simp only [List.nil_append, List.cons_append, List.head?_cons, ne_eq, Option.some.injEq]
    rintro rfl
    contradiction
  | cons d g =>
    have hd := hg d List.mem_cons_self
    simp only [List.cons_append, List.head?_cons, ne_eq, Option.some.injEq]
    rintro rfl
    contradiction

/-- One value with blanks around it is read as the value. -/
theorem read_of_spells {v : Json} {g₁ cs g₂ : List Char} (h₁ : Gap g₁) (h : Spells v cs)
    (h₂ : Gap g₂) : read (g₁ ++ (cs ++ g₂)) = .ok v := by
  have he : Ends g₂ := by simpa using ends_gap h₂ ends_nil
  have hf : cs.length ≤ 2 * (g₁ ++ (cs ++ g₂)).length + 2 := by
    simp only [List.length_append]
    omega
  have hs : skipSpace g₂ = [] := List.dropWhile_eq_nil_iff.2 h₂
  rw [read, if_neg (head?_ne_mark h₁ h.head g₂), skipSpace_gap_opening h₁ h.head, h.read hf he]
  simp only [hs]

/-- A style puts nothing but blanks between two parts. -/
structure Style.Blank (st : Style) : Prop where
  afterComma : Gap st.afterComma
  afterColon : Gap st.afterColon

theorem blank_tight : Style.tight.Blank := ⟨gap_nil, gap_nil⟩

section Lines

variable {st : Style}

mutual

/-- What is written for a plain value is one of its texts. -/
theorem spells_write (hb : st.Blank) : (v : Json) → v.isPlain → Spells v (write st v)
  | .null, _ => .null
  | .bool true, _ => .true_
  | .bool false, _ => .false_
  | .int n, h => .int (by simpa [isPlain] using h)
  | .float x, h => by simp [isPlain] at h
  | .str s, _ => .str st.ascii s
  | .arr [], _ => .noItems gap_nil
  | .arr (v :: vs), h => by
    have hs := Spells.arr gap_nil (spells_writeItems hb (v :: vs) (by simp) h)
    simpa only [write, List.nil_append, List.cons_append] using hs
  | .obj [], _ => .noMembers gap_nil
  | .obj (f :: fs), h => by
    simp only [isPlain, Bool.and_eq_true, decide_eq_true_eq] at h
    have hs := Spells.obj gap_nil h.1 (spells_writeMembers hb (f :: fs) (by simp) h.2)
    simpa only [write, List.nil_append, List.cons_append] using hs

/-- Items that are written are one of the texts of these items. -/
theorem spells_writeItems (hb : st.Blank) : (items : List Json) → items ≠ [] → arePlain items →
    SpellsItems items (writeItems st items ++ [']'])
  | [], hn, _ => absurd rfl hn
  | [v], _, h => by
    simp only [arePlain, Bool.and_true] at h
    exact .last (spells_write hb v h) gap_nil
  | v :: w :: vs, _, h => by
    rw [arePlain, Bool.and_eq_true] at h
    have hs := SpellsItems.more (spells_write hb v h.1) gap_nil hb.afterComma
      (spells_writeItems hb (w :: vs) (by simp) h.2)
    simpa only [writeItems, List.append_assoc, List.cons_append, List.nil_append] using hs

theorem spells_writeMembers (hb : st.Blank) : (fields : List (String × Json)) →
    fields ≠ [] → arePlainMembers fields →
    SpellsMembers fields (writeMembers st fields ++ ['}'])
  | [], hn, _ => absurd rfl hn
  | [(k, v)], _, h => by
    simp only [arePlainMembers, Bool.and_true] at h
    have hs := SpellsMembers.last st.ascii k gap_nil hb.afterColon (spells_write hb v h) gap_nil
    simpa only [writeMembers, List.append_assoc, List.cons_append, List.nil_append] using hs
  | (k, v) :: g :: fs, _, h => by
    rw [arePlainMembers, Bool.and_eq_true] at h
    have hs := SpellsMembers.more st.ascii k gap_nil hb.afterColon (spells_write hb v h.1) gap_nil
      hb.afterComma (spells_writeMembers hb (g :: fs) (by simp) h.2)
    simpa only [writeMembers, List.append_assoc, List.cons_append, List.nil_append] using hs

end

/-- A plain value is read back from the line written for it. -/
theorem read_write (hb : st.Blank) {v : Json} (h : v.isPlain) : read (write st v) = .ok v := by
  have hr := read_of_spells gap_nil (spells_write hb v h) gap_nil
  rwa [List.nil_append, List.append_nil] at hr

end Lines

/-- An object with one member, a word for its value, is read. -/
theorem read_member {w : List Char} {v : Json} (hw : (w, v) ∈ wordValues) (k : String) :
    read ('{' :: (writeText false k ++ ':' :: (w ++ ['}']))) = .ok (.obj [(k, v)]) := by
  have hword : ∀ fuel rest, readValue (fuel + 1) (skipSpace (w ++ rest)) = .ok (v, rest) := by
    intro fuel rest
    simp only [wordValues, List.mem_cons, Prod.mk.injEq, List.not_mem_nil, or_false] at hw
    rcases hw with ⟨rfl, rfl⟩ | ⟨rfl, rfl⟩ | ⟨rfl, rfl⟩ | ⟨rfl, rfl⟩ | ⟨rfl, rfl⟩ |
      ⟨rfl, rfl⟩ <;> rfl
  obtain ⟨cs, hcs, hk⟩ := readText_key false k (':' :: (w ++ ['}']))
  have hmembers : ∀ fuel, readMembers (fuel + 2) ('"' :: cs) = .ok ([(k, v)], []) :=
    fun fuel => readMembers_last hk (skipSpace_cons rfl) (hword fuel ['}']) rfl
  have hvalue : ∀ fuel, readValue (fuel + 3) ('{' :: '"' :: cs) = .ok (.obj [(k, v)], []) := by
    intro fuel
    have hopen : readValue (fuel + 3) ('{' :: '"' :: (cs ++ [])) = _ :=
      readValue_members gap_nil ⟨'"', cs, rfl, rfl⟩
    rw [List.append_nil] at hopen
    rw [hopen, List.append_nil, hmembers]
    rfl
  have hmark : ('{' :: '"' :: cs).head? ≠ some (Char.ofNat 0xfeff) := by simp
  have hfuel : 2 * ('{' :: '"' :: cs).length + 2 = (2 * cs.length + 3) + 3 := by
    simp only [List.length_cons]
    omega
  rw [hcs, read, if_neg hmark, skipSpace_cons rfl, hfuel, hvalue]
  rfl

end GhostText.Json
