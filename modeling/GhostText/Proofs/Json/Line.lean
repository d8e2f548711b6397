import GhostText.Proofs.Json.Texts

/-!
# A value on one line

What is written for a value in the tight layout holds no carriage return: one inside a text is
written as an escape, and a number, whatever it is, is made of digits, signs, a point and a letter.
-/

namespace GhostText.Json

section Numbers

theorem not_mem_digits {n : Nat} : '\r' ∉ Nat.toDigits 10 n := fun h =>
  absurd (Text.isDigit_of_mem_toDigits h) (by decide)

theorem not_mem_writeInteger (n : Int) : '\r' ∉ Text.writeInteger n := by
  rw [Text.writeInteger]
  split
  · simpa using not_mem_digits
  · exact not_mem_digits

theorem not_mem_decimalText (d : Decimal) : '\r' ∉ Binary64.decimalText d := by
  have hall : '\r' ∉ Nat.toDigits 10 d.digits := not_mem_digits
  have hds : '\r' ∉ Binary64.withoutTrailingZeros (Nat.toDigits 10 d.digits) := by
    intro hm
    rw [Binary64.withoutTrailingZeros, List.mem_reverse] at hm
    exact hall (List.mem_reverse.1 ((List.dropWhile_suffix _).subset hm))
  rw [Binary64.decimalText]
  generalize Binary64.withoutTrailingZeros (Nat.toDigits 10 d.digits) = ds at hds
  split
  · split
    · simp [hds]
    · have ht : ∀ n, '\r' ∉ ds.take n := fun n hm => hds (List.mem_of_mem_take hm)
      have hd : ∀ n, '\r' ∉ ds.drop n := fun n hm => hds (List.mem_of_mem_drop hm)
      simp only [List.mem_append, List.mem_cons, ht, not_or]
      refine ⟨by simp, by decide, ?_⟩
      split
      · decide
      · exact hd _
  · have hs : ∀ p : Int, '\r' ≠ (if p < 0 then '-' else '+') := by
      intro p
      split <;> decide
    simp only
    generalize ((Nat.toDigits 10 d.digits).length : Int) + d.exponent - 1 = power
    split
    · exact List.not_mem_nil
    · rw [List.mem_singleton] at hds
      simp [hs, hds, not_mem_digits]
    · rw [List.mem_cons, not_or] at hds
      simp [hs, hds.1, hds.2, not_mem_digits]

/-- A number holds no carriage return, nor do the words for what is no number. -/
theorem not_mem_writeFloat (x : Binary64) : '\r' ∉ writeFloat x := by
  cases x with
  | nan => decide
  | infinity negative => cases negative <;> decide
  | finite negative m e =>
    have hb : '\r' ∉ (if m = 0 then ['0', '.', '0']
        else Binary64.decimalText (Binary64.shortest m e)) := by
      split
      · decide
      · exact not_mem_decimalText _
    rw [writeFloat, Binary64.text, String.toList_ofList, Binary64.finiteText]
    split
    · simpa using hb
    · exact hb

end Numbers

theorem not_mem_escapeUnit {n : Nat} (h : n < 0x10000) : '\r' ∉ escapeUnit n := by
  have hdigit : ∀ d < 16, '\r' ≠ Nat.digitChar d := by decide
  rw [escapeUnit, Text.hex_four h]
  simp [hdigit (n / 4096) (by omega), hdigit (n / 256 % 16) (by omega),
    hdigit (n / 16 % 16) (by omega), hdigit (n % 16) (by omega)]

theorem not_mem_escapeNumeric (c : Char) : '\r' ∉ escapeNumeric c := by
  by_cases h : c.toNat < 0x10000
  · rw [escapeNumeric, if_pos h]
    exact not_mem_escapeUnit h
  · obtain ⟨high, low, hh, hl, -, he⟩ := escapeNumeric_pair h
    rw [he, List.mem_append, not_or]
    exact ⟨not_mem_escapeUnit (by omega), not_mem_escapeUnit (by omega)⟩

variable {ascii : Bool}

/-- A carriage return in a text is written as a letter behind a backslash. -/
theorem not_mem_writeChar (c : Char) : '\r' ∉ writeChar ascii c := by
  unfold writeChar
  split
  · decide
  split
  · decide
  split
  · decide
  split
  · decide
  split
  · decide
  split
  · decide
  split
  · decide
  split
  · exact not_mem_escapeNumeric c
  split
  · exact not_mem_escapeNumeric c
  · next hr _ _ _ _ _ =>
    rw [List.mem_singleton]
    exact Ne.symm hr

theorem not_mem_writeText (s : String) : '\r' ∉ writeText ascii s := by
  have hc : '\r' ∉ s.toList.flatMap (writeChar ascii) := by
    rw [List.mem_flatMap]
    rintro ⟨c, -, h⟩
    exact not_mem_writeChar c h
  simp [writeText, hc]

theorem not_mem_afterComma : '\r' ∉ Style.tight.afterComma := List.not_mem_nil

theorem not_mem_afterColon : '\r' ∉ Style.tight.afterColon := List.not_mem_nil

mutual

/-- Nothing that is written on a tight line is a carriage return. -/
theorem not_mem_write : (v : Json) → '\r' ∉ write .tight v
  | .null => by decide
  | .bool true => by decide
  | .bool false => by decide
  | .int n => not_mem_writeInteger n
  | .float x => not_mem_writeFloat x
  | .str s => not_mem_writeText s
  | .arr items => by simp [write, not_mem_writeItems items]
  | .obj fields => by simp [write, not_mem_writeMembers fields]

theorem not_mem_writeItems : (items : List Json) → '\r' ∉ writeItems .tight items
  | [] => List.not_mem_nil
  | [v] => not_mem_write v
  | v :: w :: rest => by
    simp [writeItems, not_mem_write v, not_mem_afterComma, not_mem_writeItems (w :: rest)]

theorem not_mem_writeMembers : (fields : List (String × Json)) → '\r' ∉ writeMembers .tight fields
  | [] => List.not_mem_nil
  | [(k, v)] => by
    simp [writeMembers, not_mem_writeText k, not_mem_afterColon, not_mem_write v]
  | (k, v) :: f :: rest => by
    simp [writeMembers, not_mem_writeText k, not_mem_afterColon, not_mem_write v,
      not_mem_afterComma, not_mem_writeMembers (f :: rest)]

end

end GhostText.Json
