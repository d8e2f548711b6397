import GhostText.Text.Digit
import GhostText.Text.Quoted
import Mathlib.Data.List.Basic
import Mathlib.Data.List.TakeWhile

/-!
# Digits written and read

The decimal digits of a number are read back as the number, and no blank has to be cut off them.
Hexadecimal digits have a fixed place each as long as the number fits the width.
-/

namespace GhostText.Text

/-! ## Decimal digits -/

section Digit

variable {c : Char} {cs : List Char} {n : Nat}

theorem toNat_of_isDigit (h : c.isDigit) : 48 ≤ c.toNat ∧ c.toNat ≤ 57 :=
  Char.isDigit_iff_toNat.1 h

theorem digitValue?_of_isDigit (h : c.isDigit) : digitValue? c = some (c.toNat - 48) := by
  obtain ⟨h₁, h₂⟩ := toNat_of_isDigit h
  have hf : (decide (48 ≤ c.toNat) && decide (c.toNat < 58)) = true := by
    simp only [Bool.and_eq_true, decide_eq_true_eq]
    omega
  simp only [digitValue?, zeroDigits, List.find?_cons, hf, Option.map_some]

theorem isBlank_of_isDigit (h : c.isDigit) : isBlank c = false := by
  obtain ⟨h₁, h₂⟩ := toNat_of_isDigit h
  simp only [isBlank, Bool.or_eq_false_iff, Bool.and_eq_false_iff, decide_eq_false_iff_not,
    beq_eq_false_iff_ne]
  omega

theorem isDigit_of_mem_toDigits (h : c ∈ Nat.toDigits 10 n) : c.isDigit :=
  Nat.isDigit_of_mem_toDigits (by decide) (by decide) h

/-- Only zero is written with a leading zero. -/
theorem toDigits_eq_cons (h : n ≠ 0) :
    ∃ c cs, Nat.toDigits 10 n = c :: cs ∧ c.isDigit ∧ c ≠ '0' := by
  induction n using Nat.strongRecOn with
  | ind n ih =>
    by_cases hn : n < 10
    · refine ⟨n.digitChar, [], Nat.toDigits_of_lt_base hn, ?_, ?_⟩
      · simpa [Nat.isDigit_digitChar] using hn
      · simpa using h
    · obtain ⟨c, cs, he, hd, hz⟩ := ih (n / 10) (by omega) (by omega)
      refine ⟨c, cs ++ [(n % 10).digitChar], ?_, hd, hz⟩
      rw [Nat.toDigits_of_base_le (by decide) (by omega), he, List.cons_append]

/-- The digits of a number are read as the number. -/
theorem ofDigits_toDigits (n : Nat) :
    ofDigits ((Nat.toDigits 10 n).map fun c => c.toNat - 48) = n := by
  rw [ofDigits, List.foldl_map]
  exact Nat.ofDigitChars_ten_toDigits

theorem wellJoined_of_not_mem (h : '_' ∉ cs) : wellJoined cs = true := by
  fun_induction wellJoined cs with
  | case1 => rfl
  | case2 cs => simp at h
  | case3 c cs hc ih => simp at h
  | case4 c cs hc hcs ih => exact ih fun hm => h (List.mem_cons_of_mem c hm)

end Digit

/-! ## A number read from its digits -/

theorem trimClass_eq_self {blank : Char → Bool} {cs : List Char} (h : ∀ c ∈ cs, blank c = false) :
    trimClass blank cs = cs := by
  have hl : ∀ ds : List Char, (∀ c ∈ ds, blank c = false) → ds.dropWhile blank = ds := by
    intro ds hd
    rw [List.dropWhile_eq_self_iff]
    intro hp
    rw [hd _ (List.getElem_mem hp)]
    exact Bool.false_ne_true
  rw [trimClass, trimLeft, hl cs h, trimRight, hl _ (by simpa using h), List.reverse_reverse]

/-- A row of digits is a number, unless there are too many of them. -/
theorem readInteger_digits {ds : List Char} (hne : ds ≠ []) (hd : ∀ c ∈ ds, c.isDigit) :
    readInteger (String.ofList ds) =
      if digitLimit < ds.length then .error (.tooManyDigits ds.length)
      else .ok (ofDigits (ds.map fun c => c.toNat - 48)) := by
  have hv : ∀ c ∈ ds, digitValue? c = some (c.toNat - 48) := fun c hc =>
    digitValue?_of_isDigit (hd c hc)
  have hj : wellJoined ds = true := wellJoined_of_not_mem fun hm => by
    have := hd '_' hm
    contradiction
  have hb : trimLeft isNumberBlank ds = ds := by
    obtain ⟨c, cs, rfl⟩ := List.exists_cons_of_ne_nil hne
    have hc := isBlank_of_isDigit (hd c List.mem_cons_self)
    simp [trimLeft, isNumberBlank, hc]
  have ht : ds.takeWhile isDigitOrJoint = ds := List.takeWhile_eq_self_iff.2 fun c hc => by
    simp [isDigitOrJoint, hv c hc]
  have hr : ds.dropWhile isDigitOrJoint = [] := List.dropWhile_eq_nil_iff.2 fun c hc => by
    simp [isDigitOrJoint, hv c hc]
  have hm : ds.filterMap digitValue? = ds.map fun c => c.toNat - 48 :=
    List.filterMap_eq_map_iff_forall_eq_some.2 hv
  have he : ds.isEmpty = false := by simpa using hne
  simp only [readInteger, String.toList_ofList, hb]
  -- No sign stands before the first digit.
  split
  · exact absurd (hd '-' List.mem_cons_self) (by decide)
  · exact absurd (hd '+' List.mem_cons_self) (by decide)
  · simp only [ht, hr, hm, hj, he, List.length_map, Bool.not_true, Bool.or_self, Bool.false_eq_true,
      if_false, List.all_nil, if_true]

/-- A written number is read as itself, if it has no more digits than are read. -/
theorem readInteger_toDigits {n : Nat} (h : (Nat.toDigits 10 n).length ≤ digitLimit) :
    readInteger (String.ofList (Nat.toDigits 10 n)) = .ok n := by
  rw [readInteger_digits Nat.toDigits_ne_nil fun c => isDigit_of_mem_toDigits,
    if_neg (Nat.not_lt.2 h), ofDigits_toDigits]

/-! ## Hexadecimal digits -/

/-- The last digit of a number that has more room. -/
theorem hex_succ (w n : Nat) :
    hex (w + 2) n = hex (w + 1) (n / 16) ++ [(n % 16).digitChar] := by
  simp only [hex]
  by_cases hn : n < 16
  · rw [Nat.toDigits_of_lt_base hn, Nat.div_eq_of_lt hn, Nat.toDigits_zero, Nat.mod_eq_of_lt hn]
    simp [List.replicate_succ']
  · rw [Nat.toDigits_of_base_le (by decide) (by omega)]
    rw [List.length_append, List.length_singleton, ← List.append_assoc,
      show w + 2 = w + 1 + 1 from rfl, Nat.add_sub_add_right]

theorem hex_one {n : Nat} (h : n < 16) : hex 1 n = [n.digitChar] := by
  simp [hex, Nat.toDigits_of_lt_base h]

/-- Each of four hexadecimal digits has a place of its own. -/
theorem hex_four {n : Nat} (h : n < 0x10000) :
    hex 4 n = [(n / 4096).digitChar, (n / 256 % 16).digitChar, (n / 16 % 16).digitChar,
      (n % 16).digitChar] := by
  rw [hex_succ, hex_succ, hex_succ, hex_one (by omega)]
  simp only [Nat.div_div_eq_div_mul, List.cons_append, List.nil_append]

end GhostText.Text
