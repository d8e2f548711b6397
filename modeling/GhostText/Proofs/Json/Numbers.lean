import GhostText.Json.Printer
import GhostText.Json.Reader
import GhostText.Proofs.Text.Digits

/-!
# Integers written and read

A written integer is read back up to the first character that no number takes in. No word of the
reader stands at the start of an integer, also not the negative infinity.
-/

namespace GhostText.Json

/-- What may follow a value: nothing that would still belong to a number. -/
def Ends (rest : List Char) : Prop :=
  ∀ c ∈ rest.head?, c.isDigit = false ∧ c ≠ '.' ∧ c ≠ 'e' ∧ c ≠ 'E'

theorem ends_nil : Ends [] := by simp [Ends]

/-- A character that is part of no number ends one. -/
theorem ends_cons {c : Char} (h : c.isDigit = false ∧ c ≠ '.' ∧ c ≠ 'e' ∧ c ≠ 'E')
    (cs : List Char) : Ends (c :: cs) := by
  simpa [Ends] using h

section Parts

variable {ds rest : List Char}

/-- The digits of a number are those before its end. -/
theorem takeWhile_isDigit (hd : ∀ d ∈ ds, d.isDigit) (h : Ends rest) :
    (ds ++ rest).takeWhile Char.isDigit = ds := by
  rw [List.takeWhile_append_of_pos hd]
  cases rest with
  | nil => rw [List.takeWhile_nil, List.append_nil]
  | cons c cs => simp [(h c rfl).1]

theorem dropWhile_isDigit (hd : ∀ d ∈ ds, d.isDigit) (h : Ends rest) :
    (ds ++ rest).dropWhile Char.isDigit = rest := by
  rw [List.dropWhile_append_of_pos hd]
  cases rest with
  | nil => rfl
  | cons c cs => simp [(h c rfl).1]

theorem fractionPart_of_ends (h : Ends rest) : fractionPart rest = ([], rest) := by
  rw [fractionPart]
  · rintro d cs rfl
    exact (h '.' rfl).2.1 rfl

theorem exponentPart_of_ends (h : Ends rest) : exponentPart rest = (none, rest) := by
  cases rest with
  | nil => rfl
  | cons c cs =>
    have hc := (h c rfl).2.2
    simp [exponentPart, hc.1, hc.2]

/-- Digits without a leading zero are taken whole. -/
theorem numberParts?_digits (hd : ∀ d ∈ ds, d.isDigit)
    (hz : ds = ['0'] ∨ ∃ c cs, ds = c :: cs ∧ c ≠ '0') (h : Ends rest) :
    numberParts? (ds ++ rest) = some (⟨false, ds, [], none⟩, rest) ∧
      numberParts? ('-' :: (ds ++ rest)) = some (⟨true, ds, [], none⟩, rest) := by
  rcases hz with rfl | ⟨c, cs, rfl, hc⟩
  · simp [numberParts?, fractionPart_of_ends h, exponentPart_of_ends h]
  · have hs : c ≠ '-' := fun e => absurd (hd c List.mem_cons_self) (by rw [e]; decide)
    have ht := takeWhile_isDigit hd h
    have hw := dropWhile_isDigit hd h
    rw [List.cons_append] at ht hw ⊢
    simp [numberParts?, hs, hd c List.mem_cons_self, ht, hw, fractionPart_of_ends h,
      exponentPart_of_ends h]

end Parts

/-- Every word has a letter at its start or after a sign. -/
theorem find?_wordValues {ds : List Char} (hne : ds ≠ []) (hd : ∀ d ∈ ds, d.isDigit)
    (rest : List Char) :
    wordValues.find? (fun w => w.1.isPrefixOf (ds ++ rest)) = none ∧
      wordValues.find? (fun w => w.1.isPrefixOf ('-' :: (ds ++ rest))) = none := by
  obtain ⟨d, es, rfl⟩ := List.exists_cons_of_ne_nil hne
  have hl : ∀ c : Char, c.isDigit = false → c ≠ d := by
    rintro c hc rfl
    rw [hd c List.mem_cons_self] at hc
    contradiction
  simp [wordValues, hl 'n' rfl, hl 't' rfl, hl 'f' rfl, hl 'N' rfl, hl 'I' rfl, hl '-' rfl]

/-- A whole number is written without zeros before it. -/
theorem toDigits_whole (n : Nat) :
    Nat.toDigits 10 n = ['0'] ∨ ∃ c cs, Nat.toDigits 10 n = c :: cs ∧ c ≠ '0' := by
  by_cases h : n = 0
  · exact .inl (h ▸ Nat.toDigits_zero 10)
  · obtain ⟨c, cs, he, -, hc⟩ := Text.toDigits_eq_cons h
    exact .inr ⟨c, cs, he, hc⟩

/-- A written integer is read back. -/
theorem readScalar_writeInteger {n : Int} {rest : List Char}
    (hn : (Nat.toDigits 10 n.natAbs).length ≤ Text.digitLimit) (h : Ends rest) :
    readScalar (Text.writeInteger n ++ rest) = .ok (.int n, rest) := by
  have hd : ∀ d ∈ Nat.toDigits 10 n.natAbs, d.isDigit := fun d => Text.isDigit_of_mem_toDigits
  have hw := find?_wordValues Nat.toDigits_ne_nil hd rest
  have hp := numberParts?_digits hd (toDigits_whole n.natAbs) h
  have hv : digitsOf (Nat.toDigits 10 n.natAbs) = n.natAbs := Text.ofDigits_toDigits n.natAbs
  by_cases hs : n < 0
  · have hi : -(n.natAbs : Int) = n := by omega
    rw [Text.writeInteger, if_pos hs, List.cons_append, readScalar, hw.2, hp.2]
    simp only [NumberParts.value, hv, hi, Nat.not_lt.2 hn, List.isEmpty_nil, Option.isNone_none,
      Bool.and_self, if_true, if_false]
  · have hi : (n.natAbs : Int) = n := by omega
    rw [Text.writeInteger, if_neg hs, readScalar, hw.1, hp.1]
    simp only [NumberParts.value, hv, hi, Nat.not_lt.2 hn, List.isEmpty_nil, Option.isNone_none,
      Bool.and_self, if_true, if_false, Bool.false_eq_true]

end GhostText.Json
