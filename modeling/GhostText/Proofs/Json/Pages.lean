import GhostText.Proofs.Json.Line
import GhostText.Proofs.Json.RoundTrip

/-!
# Values written on pages

A page differs from a line in the blanks between two parts, so it too is one of the texts of a plain
value and is read as that value. It holds no carriage return.
-/

namespace GhostText.Json

theorem not_mem_newLine (depth : Nat) : '\r' ∉ newLine depth := by
  simp [newLine, List.mem_replicate]

/-- A line break and the indent behind it are blank. -/
theorem gap_newLine (depth : Nat) : Gap (newLine depth) := by
  intro c hc
  rcases List.mem_cons.1 hc with rfl | hc
  · rfl
  · rw [List.eq_of_mem_replicate hc]
    rfl

theorem gap_space : Gap [' '] := by simp [Gap, isSpace]

mutual

/-- Nothing that is written on a page is a carriage return. -/
theorem not_mem_writePage : (depth : Nat) → (v : Json) → '\r' ∉ writePage depth v
  | _, .null => show '\r' ∉ writeScalar true .null by decide
  | _, .bool true => show '\r' ∉ writeScalar true (.bool true) by decide
  | _, .bool false => show '\r' ∉ writeScalar true (.bool false) by decide
  | _, .int n => not_mem_writeInteger n
  | _, .float x => not_mem_writeFloat x
  | _, .str s => not_mem_writeText s
  | _, .arr [] => show '\r' ∉ ['[', ']'] by decide
  | depth, .arr (v :: rest) => by
    simp [writePage, not_mem_pageItems (depth + 1) (v :: rest), not_mem_newLine]
  | _, .obj [] => show '\r' ∉ ['{', '}'] by decide
  | depth, .obj (f :: rest) => by
    simp [writePage, not_mem_pageMembers (depth + 1) (f :: rest), not_mem_newLine]

theorem not_mem_pageItems : (depth : Nat) → (items : List Json) → '\r' ∉ pageItems depth items
  | _, [] => List.not_mem_nil
  | depth, [v] => by simp [pageItems, not_mem_newLine, not_mem_writePage depth v]
  | depth, v :: w :: rest => by
    simp [pageItems, not_mem_newLine, not_mem_writePage depth v,
      not_mem_pageItems depth (w :: rest)]

theorem not_mem_pageMembers : (depth : Nat) → (fields : List (String × Json)) →
    '\r' ∉ pageMembers depth fields
  | _, [] => List.not_mem_nil
  | depth, [(k, v)] => by
    simp [pageMembers, not_mem_newLine, not_mem_writeText k, not_mem_writePage depth v]
  | depth, (k, v) :: f :: rest => by
    simp [pageMembers, not_mem_newLine, not_mem_writeText k, not_mem_writePage depth v,
      not_mem_pageMembers depth (f :: rest)]

end

mutual

/-- What is written on a page for a plain value is one of its texts. -/
theorem spells_writePage : (depth : Nat) → (v : Json) → v.isPlain → Spells v (writePage depth v)
  | _, .null, _ => .null
  | _, .bool true, _ => .true_
  | _, .bool false, _ => .false_
  | _, .int n, h => .int (by simpa [isPlain] using h)
  | _, .float x, h => by simp [isPlain] at h
  | _, .str s, _ => .str true s
  | _, .arr [], _ => .noItems gap_nil
  | depth, .arr (v :: rest), h => by
    obtain ⟨cs, he, hs⟩ := spells_pageItems (depth + 1) (newLine depth) (gap_newLine depth)
      (v :: rest) (by simp) h
    rw [writePage, List.append_assoc, List.cons_append, he]
    exact .arr (gap_newLine _) hs
  | _, .obj [], _ => .noMembers gap_nil
  | depth, .obj (f :: rest), h => by
    simp only [isPlain, Bool.and_eq_true, decide_eq_true_eq] at h
    obtain ⟨cs, he, hs⟩ := spells_pageMembers (depth + 1) (newLine depth) (gap_newLine depth)
      (f :: rest) (by simp) h.2
    rw [writePage, List.append_assoc, List.cons_append, he]
    exact .obj (gap_newLine _) h.1 hs

/-- The first item stands on a new line, and from there the items with what closes them are a text
of theirs. -/
theorem spells_pageItems : (depth : Nat) → (g : List Char) → Gap g → (items : List Json) →
    items ≠ [] → arePlain items →
    ∃ cs, pageItems depth items ++ (g ++ [']']) = newLine depth ++ cs ∧ SpellsItems items cs
  | _, _, _, [], hn, _ => absurd rfl hn
  | depth, g, hg, [v], _, h => by
    simp only [arePlain, Bool.and_true] at h
    exact ⟨_, List.append_assoc _ _ _, .last (spells_writePage depth v h) hg⟩
  | depth, g, hg, v :: w :: rest, _, h => by
    rw [arePlain, Bool.and_eq_true] at h
    obtain ⟨cs, he, hs⟩ := spells_pageItems depth g hg (w :: rest) (by simp) h.2
    refine ⟨_, ?_, .more (spells_writePage depth v h.1) gap_nil (gap_newLine depth) hs⟩
    rw [pageItems, ← he]
    simp only [List.append_assoc, List.cons_append, List.nil_append]

/-- Members on lines of their own are one of the texts of these members. -/
theorem spells_pageMembers : (depth : Nat) → (g : List Char) → Gap g →
    (fields : List (String × Json)) → fields ≠ [] → arePlainMembers fields →
    ∃ cs, pageMembers depth fields ++ (g ++ ['}']) = newLine depth ++ cs ∧ SpellsMembers fields cs
  | _, _, _, [], hn, _ => absurd rfl hn
  | depth, g, hg, [(k, v)], _, h => by
    simp only [arePlainMembers, Bool.and_true] at h
    refine ⟨_, ?_, .last true k gap_nil gap_space (spells_writePage depth v h) hg⟩
    simp only [pageMembers, List.append_assoc, List.cons_append, List.nil_append]
  | depth, g, hg, (k, v) :: f :: rest, _, h => by
    rw [arePlainMembers, Bool.and_eq_true] at h
    obtain ⟨cs, he, hs⟩ := spells_pageMembers depth g hg (f :: rest) (by simp) h.2
    refine ⟨_, ?_, .more true k gap_nil gap_space (spells_writePage depth v h.1) gap_nil
      (gap_newLine depth) hs⟩
    rw [pageMembers, ← he]
    simp only [List.append_assoc, List.cons_append, List.nil_append]

end

/-- A plain value is read back from its page. -/
theorem read_writePage {v : Json} (h : v.isPlain) : read (writePage 0 v) = .ok v := by
  have hr := read_of_spells gap_nil (spells_writePage 0 v h) gap_nil
  rwa [List.nil_append, List.append_nil] at hr

end GhostText.Json
