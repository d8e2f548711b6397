import GhostText.Text.Blank
import Mathlib.Data.List.DropRight

/-!
# Texts without blanks around them

A trimmed text has no blank at either end, and trimming leaves such a text as it is. Nothing is left
of a text if and only if it has blanks only. The words of a text have no blanks at all.
-/

namespace GhostText.Text

variable {blank : Char → Bool} {cs : List Char} {c : Char}

theorem not_blank_of_dropWhile {ds : List Char} (h : cs.dropWhile blank = c :: ds) :
    blank c = false := by
  have hne : cs.dropWhile blank ≠ [] := by simp [h]
  have hhead := List.head_dropWhile_not blank hne
  simpa [h] using hhead

structure IsTrimmed (s : String) : Prop where
  start : ∀ c ∈ s.toList.head?, isBlank c = false
  stop : ∀ c ∈ s.toList.getLast?, isBlank c = false

theorem head_trimClass {ds : List Char} (h : trimClass blank cs = c :: ds) : blank c = false := by
  have hp : trimClass blank cs <+: cs.dropWhile blank := List.rdropWhile_prefix blank _
  rw [h] at hp
  obtain ⟨rest, hr⟩ := hp
  exact not_blank_of_dropWhile hr.symm

theorem getLast_trimClass (h : (trimClass blank cs).getLast? = some c) : blank c = false := by
  have hr : (trimClass blank cs).reverse = (cs.dropWhile blank).reverse.dropWhile blank := by
    rw [trimClass, trimRight, trimLeft, List.reverse_reverse]
  rw [List.getLast?_eq_head?_reverse, hr, List.head?_eq_some_iff] at h
  obtain ⟨ds, hd⟩ := h
  exact not_blank_of_dropWhile hd

/-- A trimmed text has no blank at either end. -/
theorem isTrimmed_trim (s : String) : IsTrimmed (trim s) := by
  constructor
  · intro c hc
    rw [trim, String.toList_ofList, Option.mem_def, List.head?_eq_some_iff] at hc
    obtain ⟨ds, hd⟩ := hc
    exact head_trimClass hd
  · intro c hc
    rw [trim, String.toList_ofList] at hc
    exact getLast_trimClass hc

/-- Nothing is cut off a text without blanks at its ends. -/
theorem IsTrimmed.trim_eq {s : String} (h : IsTrimmed s) : trim s = s := by
  have hl : s.toList.dropWhile isBlank = s.toList := by
    cases hs : s.toList with
    | nil => rfl
    | cons c cs => rw [List.dropWhile_cons_of_neg (by simp [h.start c (by simp [hs])])]
  have hr : s.toList.rdropWhile isBlank = s.toList := by
    rw [List.rdropWhile_eq_self_iff]
    intro hne
    simp [h.stop _ (List.getLast?_eq_some_getLast hne)]
  have ht : trimClass isBlank s.toList = s.toList := by
    rw [trimClass, trimLeft, hl]
    exact hr
  rw [trim, ht, String.ofList_toList]

/-- A text without blanks around it is what trimming makes of it. -/
theorem isTrimmed_iff {s : String} : IsTrimmed s ↔ trim s = s :=
  ⟨IsTrimmed.trim_eq, fun h => h ▸ isTrimmed_trim s⟩

instance (s : String) : Decidable (IsTrimmed s) := decidable_of_iff _ isTrimmed_iff.symm

/-- Nothing is left if there are blanks only. -/
theorem trimClass_eq_nil_iff : trimClass blank cs = [] ↔ ∀ c ∈ cs, blank c = true := by
  have hr : trimClass blank cs = (cs.dropWhile blank).rdropWhile blank := rfl
  rw [hr, List.rdropWhile_eq_nil_iff]
  constructor
  · intro h
    rw [← List.dropWhile_eq_nil_iff]
    cases hd : cs.dropWhile blank with
    | nil => rfl
    | cons c ds =>
      have hc := h c (by simp [hd])
      rw [not_blank_of_dropWhile hd] at hc
      cases hc
  · intro h c hc
    exact h c ((List.dropWhile_suffix blank).mem hc)

/-- There is something else than blanks in a text. -/
def HasInk (s : String) : Prop := ∃ c ∈ s.toList, isBlank c = false

instance (s : String) : Decidable (HasInk s) :=
  decidable_of_iff (s.toList.any fun c => !isBlank c) (by simp [HasInk])

/-- Something is left of a text if it has a character that is no blank. -/
theorem isEmpty_trim_eq_false_iff (s : String) : (trim s).isEmpty = false ↔ HasInk s := by
  have he : trim s = "" ↔ trimClass isBlank s.toList = [] := by
    rw [trim, ← String.toList_inj, String.toList_ofList]
    rfl
  simp only [Bool.eq_false_iff, Ne, String.isEmpty_iff, he, trimClass_eq_nil_iff, HasInk]
  simp

/-- A word holds something, and no blanks. -/
theorem not_blank_of_mem_wordsOf {w : List Char} (h : w ∈ wordsOf cs) :
    w ≠ [] ∧ ∀ c ∈ w, isBlank c = false := by
  fun_induction wordsOf cs generalizing w with
  | case1 => simp at h
  | case2 c cs hc ih => exact ih h
  | case3 c hc => simp_all
  | case4 c hc d cs hd ih =>
    rcases List.mem_cons.1 h with rfl | h
    · simpa using hc
    · exact ih h
  | case5 c hc d cs hd hw ih => simp_all
  | case6 c hc d cs hd v vs hw ih =>
    rw [hw] at ih h
    rcases List.mem_cons.1 h with rfl | h
    · exact ⟨List.cons_ne_nil _ _, List.forall_mem_cons.2
        ⟨by simpa using hc, (ih List.mem_cons_self).2⟩⟩
    · exact ih (List.mem_cons_of_mem _ h)

/-- No word is empty. -/
theorem hasInk_of_mem_words {s w : String} (h : w ∈ words s) : HasInk w := by
  obtain ⟨cs, hcs, rfl⟩ := List.mem_map.1 h
  obtain ⟨hne, hc⟩ := not_blank_of_mem_wordsOf hcs
  obtain ⟨c, rest, rfl⟩ := List.exists_cons_of_ne_nil hne
  exact ⟨c, by simp, hc c List.mem_cons_self⟩

end GhostText.Text
