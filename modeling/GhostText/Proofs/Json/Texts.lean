import GhostText.Json.Printer
import GhostText.Json.Reader
import GhostText.Proofs.Text.Digits

/-!
# Texts written and read

The text after an opening quote is read character by character, and what was written for a character
gives it back whatever follows: itself, a letter for it, its number, or the two halves of a
surrogate pair. So a written text is read back, whether or not it was kept within ASCII.
-/

namespace GhostText.Json

/-! ## Numeric escapes -/

theorem hexValue?_digitChar : ∀ d < 16, hexValue? (Nat.digitChar d) = some d := by decide

/-- Four hexadecimal digits are read as the number they were written for. -/
theorem hex4?_hex {n : Nat} (h : n < 0x10000) (cs : List Char) :
    hex4? (Text.hex 4 n ++ cs) = some n := by
  have hn : 4096 * (n / 4096) + 256 * (n / 256 % 16) + 16 * (n / 16 % 16) + n % 16 = n := by omega
  rw [Text.hex_four h]
  simp only [List.cons_append, List.nil_append, hex4?]
  rw [hexValue?_digitChar _ (by omega), hexValue?_digitChar _ (by omega),
    hexValue?_digitChar _ (by omega), hexValue?_digitChar _ (by omega)]
  exact congrArg some hn

theorem length_hex {n : Nat} (h : n < 0x10000) : (Text.hex 4 n).length = 4 := by
  rw [Text.hex_four h]
  rfl

theorem drop_hex {n : Nat} (h : n < 0x10000) (cs : List Char) :
    (Text.hex 4 n ++ cs).drop 4 = cs := by
  rw [Text.hex_four h]
  rfl

section Unicode

variable {cs : List Char} {n : Nat}

/-- A character is no half of a surrogate pair. -/
theorem not_isHighSurrogate (h : n < 0xd800 ∨ 0xdfff < n) : isHighSurrogate n = false := by
  simp only [isHighSurrogate, Bool.and_eq_false_iff, decide_eq_false_iff_not]
  omega

theorem not_isLowSurrogate (h : n < 0xd800 ∨ 0xdfff < n) : isLowSurrogate n = false := by
  simp only [isLowSurrogate, Bool.and_eq_false_iff, decide_eq_false_iff_not]
  omega

/-- An escape of no surrogate is one character, whatever follows it. -/
theorem unicodeEscape_single (h : n < 0x10000) (hs : n < 0xd800 ∨ 0xdfff < n) (hc : cs ≠ []) :
    unicodeEscape (Text.hex 4 n ++ cs) = .ok (Char.ofNat n, 5) := by
  have he : cs.isEmpty = false := by simpa using hc
  have hu : unitChar n = Char.ofNat n := by
    simp [unitChar, not_isHighSurrogate hs, not_isLowSurrogate hs]
  simp only [unicodeEscape, drop_hex h, hex4?_hex h, he, Bool.false_eq_true, if_false]
  split
  · rw [not_isHighSurrogate hs, Bool.false_and, if_neg Bool.false_ne_true, hu]
  · rw [hu]

/-- Two halves of a pair are read as one character. -/
theorem unicodeEscape_pair {high low : Nat} (hh : 0xd800 ≤ high ∧ high ≤ 0xdbff)
    (hl : 0xdc00 ≤ low ∧ low ≤ 0xdfff) (hc : cs ≠ []) :
    unicodeEscape (Text.hex 4 high ++ '\\' :: 'u' :: (Text.hex 4 low ++ cs)) =
      .ok (pairChar high low, 11) := by
  have he : cs.isEmpty = false := by simpa using hc
  have hs : isHighSurrogate high = true := by simpa [isHighSurrogate] using hh
  have ht : isLowSurrogate low = true := by simpa [isLowSurrogate] using hl
  have h₁ : high < 0x10000 := by omega
  have h₂ : low < 0x10000 := by omega
  simp only [unicodeEscape, drop_hex h₁, drop_hex h₂, hex4?_hex h₁, hex4?_hex h₂, he, hs, ht,
    List.isEmpty_cons, Bool.false_eq_true, if_false, Bool.not_false, Bool.and_self, if_true]

end Unicode

/-! ## One character after another -/

section Characters

variable {opening cs : List Char}

theorem textFrom_skip (a : List Char) :
    textFrom opening a.length (a ++ cs) = textFrom opening 0 cs := by
  induction a with
  | nil => rfl
  | cons c a ih => exact ih

/-- An escape puts its character before the rest. -/
theorem textFrom_escape {d : Char} (a : List Char)
    (h : escape opening (a ++ cs) = .ok (d, a.length)) :
    textFrom opening 0 ('\\' :: (a ++ cs)) =
      (textFrom opening 0 cs).map fun r => (d :: r.1, r.2) := by
  rw [textFrom, if_neg (by decide), if_pos rfl, h]
  simp only [textFrom_skip]

/-- A character that stands for itself is read as itself. -/
theorem textFrom_plain {c : Char} (hq : c ≠ '"') (hb : c ≠ '\\') (hc : ¬ c.toNat < 0x20) :
    textFrom opening 0 (c :: cs) = (textFrom opening 0 cs).map fun r => (c :: r.1, r.2) := by
  rw [textFrom, if_neg hq, if_neg hb, if_neg hc]

/-- A character above U+FFFF is written as the two halves that make it up again. -/
theorem escapeNumeric_pair {c : Char} (h : ¬ c.toNat < 0x10000) :
    ∃ high low, (0xd800 ≤ high ∧ high ≤ 0xdbff) ∧ (0xdc00 ≤ low ∧ low ≤ 0xdfff) ∧
      pairChar high low = c ∧ escapeNumeric c = escapeUnit high ++ escapeUnit low := by
  have hv : c.toNat < 0xd800 ∨ 0xdfff < c.toNat ∧ c.toNat < 0x110000 := c.valid
  refine ⟨0xd800 + (c.toNat - 0x10000) / 1024, 0xdc00 + (c.toNat - 0x10000) % 1024, by omega,
    by omega, ?_, ?_⟩
  · rw [pairChar, show 0x10000 + 1024 * (0xd800 + (c.toNat - 0x10000) / 1024 - 0xd800) +
      (0xdc00 + (c.toNat - 0x10000) % 1024 - 0xdc00) = c.toNat by omega, Char.ofNat_toNat]
  · rw [escapeNumeric, if_neg h]

/-- A character that is written by its number is read as itself. -/
theorem textFrom_escapeNumeric (c : Char) (h : cs ≠ []) :
    textFrom opening 0 (escapeNumeric c ++ cs) =
      (textFrom opening 0 cs).map fun r => (c :: r.1, r.2) := by
  by_cases hn : c.toNat < 0x10000
  · have hv : c.toNat < 0xd800 ∨ 0xdfff < c.toNat ∧ c.toNat < 0x110000 := c.valid
    have he : escape opening ('u' :: Text.hex 4 c.toNat ++ cs) =
        .ok (c, ('u' :: Text.hex 4 c.toNat).length) := by
      rw [List.cons_append, escape, unicodeEscape_single hn (by omega) h, Char.ofNat_toNat,
        List.length_cons, length_hex hn]
    rw [escapeNumeric, if_pos hn]
    exact textFrom_escape ('u' :: Text.hex 4 c.toNat) he
  · obtain ⟨high, low, hh, hl, hp, hw⟩ := escapeNumeric_pair hn
    have he : escape opening ('u' :: (Text.hex 4 high ++ '\\' :: 'u' :: Text.hex 4 low) ++ cs) =
        .ok (c, ('u' :: (Text.hex 4 high ++ '\\' :: 'u' :: Text.hex 4 low)).length) := by
      simp only [List.cons_append, List.append_assoc, escape, unicodeEscape_pair hh hl h, hp,
        List.length_cons, List.length_append, length_hex (show high < 0x10000 by omega),
        length_hex (show low < 0x10000 by omega)]
    have ht := textFrom_escape _ he
    rw [hw, escapeUnit, escapeUnit]
    simpa only [List.cons_append, List.append_assoc] using ht

/-- What was written for a character is read as the character. -/
theorem textFrom_writeChar (ascii : Bool) (c : Char) (h : cs ≠ []) :
    textFrom opening 0 (writeChar ascii c ++ cs) =
      (textFrom opening 0 cs).map fun r => (c :: r.1, r.2) := by
  have hc : Char.ofNat c.toNat = c := Char.ofNat_toNat c
  rw [writeChar]
  split
  · next e =>
    subst e
    exact textFrom_escape ['"'] rfl
  split
  · next e =>
    subst e
    exact textFrom_escape ['\\'] rfl
  split
  · next e =>
    subst e
    exact textFrom_escape ['n'] rfl
  split
  · next e =>
    subst e
    exact textFrom_escape ['r'] rfl
  split
  · next e =>
    subst e
    exact textFrom_escape ['t'] rfl
  split
  · next e =>
    rw [e] at hc
    exact hc ▸ textFrom_escape ['b'] rfl
  split
  · next e =>
    rw [e] at hc
    exact hc ▸ textFrom_escape ['f'] rfl
  split
  · exact textFrom_escapeNumeric c h
  split
  · exact textFrom_escapeNumeric c h
  · next hq hb _ _ _ _ _ hn _ => exact textFrom_plain hq hb hn

/-- A written text is read up to its closing quote, by induction over its characters. -/
theorem textFrom_flatMap (ascii : Bool) (s rest : List Char) :
    textFrom opening 0 (s.flatMap (writeChar ascii) ++ '"' :: rest) = .ok (s, rest) := by
  induction s with
  | nil => rw [List.flatMap_nil, List.nil_append, textFrom, if_pos rfl]
  | cons c s ih =>
    rw [List.flatMap_cons, List.append_assoc, textFrom_writeChar ascii c (by simp), ih]
    rfl

end Characters

/-- A written text is read back up to its closing quote. -/
theorem readText_writeText (ascii : Bool) (opening rest : List Char) (s : String) :
    readText opening (s.toList.flatMap (writeChar ascii) ++ '"' :: rest) = .ok (s, rest) := by
  rw [readText, textFrom_flatMap]
  exact congrArg (fun t => Except.ok (t, rest)) String.ofList_toList

end GhostText.Json
