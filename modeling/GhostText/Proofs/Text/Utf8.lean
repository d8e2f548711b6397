import GhostText.Text.Utf8

/-!
# Texts through their bytes

Decoding gives back every text that was encoded: the bytes of a character take the decoder from
between two characters to between two characters, and the one fragment it hands out is the
character. The bytes of a text within ASCII are its numbers.
-/

namespace GhostText.Text.Utf8

/-! ## One equation for each byte of a character -/

section Steps

variable {b : UInt8} {bs seen : List UInt8} {k low high value : Nat}

/-- A byte that is a character by itself is one fragment. -/
theorem fragmentsFrom_char {c : Char} (h : start b = .char c) :
    fragmentsFrom none (b :: bs) = .char c :: fragmentsFrom none bs := by
  rw [fragmentsFrom, h]

theorem fragmentsFrom_opens {o : Open} (h : start b = .opens o) :
    fragmentsFrom none (b :: bs) = fragmentsFrom (some o) bs := by
  rw [fragmentsFrom, h]

theorem fragmentsFrom_more (h : low ≤ b.toNat ∧ b.toNat ≤ high) :
    fragmentsFrom (some ⟨k + 1, low, high, value, seen⟩) (b :: bs) =
      fragmentsFrom (some ⟨k, 0x80, 0xbf, 64 * value + b.toNat % 64, seen ++ [b]⟩) bs := by
  rw [fragmentsFrom, if_pos h]

/-- The last byte of a character completes it. -/
theorem fragmentsFrom_last (h : low ≤ b.toNat ∧ b.toNat ≤ high) :
    fragmentsFrom (some ⟨0, low, high, value, seen⟩) (b :: bs) =
      .char (Char.ofNat (64 * value + b.toNat % 64)) :: fragmentsFrom none bs := by
  rw [fragmentsFrom, if_pos h]

end Steps

theorem toNat_ofNat {n : Nat} (h : n < 256) : (UInt8.ofNat n).toNat = n := by
  simp [Nat.mod_eq_of_lt h]

section Starts

variable {n : Nat}

theorem start_one (h : n < 0x80) : start (UInt8.ofNat n) = .char (Char.ofNat n) := by
  simp only [start, toNat_ofNat (show n < 256 by omega), if_pos h]

theorem start_two (h : 0xc2 ≤ n ∧ n < 0xe0) :
    start (UInt8.ofNat n) = .opens ⟨0, 0x80, 0xbf, n - 0xc0, [UInt8.ofNat n]⟩ := by
  simp only [start, toNat_ofNat (show n < 256 by omega)]
  rw [if_neg (by omega), if_neg (by omega), if_pos h.2]

/-- The byte that opens a character of three bytes rules out overlong forms and surrogates. -/
theorem start_three (h : 0xe0 ≤ n ∧ n < 0xf0) :
    start (UInt8.ofNat n) = .opens ⟨1, if n = 0xe0 then 0xa0 else 0x80,
      if n = 0xed then 0x9f else 0xbf, n - 0xe0, [UInt8.ofNat n]⟩ := by
  simp only [start, toNat_ofNat (show n < 256 by omega)]
  rw [if_neg (by omega), if_neg (by omega), if_neg (by omega), if_pos h.2]

/-- The byte that opens a character of four bytes rules out overlong forms and what is above the
last character. -/
theorem start_four (h : 0xf0 ≤ n ∧ n < 0xf5) :
    start (UInt8.ofNat n) = .opens ⟨2, if n = 0xf0 then 0x90 else 0x80,
      if n = 0xf4 then 0x8f else 0xbf, n - 0xf0, [UInt8.ofNat n]⟩ := by
  simp only [start, toNat_ofNat (show n < 256 by omega)]
  rw [if_neg (by omega), if_neg (by omega), if_neg (by omega), if_neg (by omega), if_pos h.2]

end Starts

/-- The bytes after the first one carry six bits each. -/
theorem toNat_tail (n : Nat) : (UInt8.ofNat (n % 64 + 128)).toNat = n % 64 + 128 :=
  toNat_ofNat (by omega)

/-- A character is no surrogate and not above the last one. -/
theorem toNat_valid (c : Char) : c.toNat < 0xd800 ∨ 0xdfff < c.toNat ∧ c.toNat < 0x110000 := by
  exact c.valid

/-- The bytes of a character, by its size. -/
theorem utf8EncodeChar_eq (c : Char) : String.utf8EncodeChar c =
    if c.toNat ≤ 0x7f then [UInt8.ofNat c.toNat]
    else if c.toNat ≤ 0x7ff then
      [UInt8.ofNat (c.toNat / 64 % 32 + 0xc0), UInt8.ofNat (c.toNat % 64 + 128)]
    else if c.toNat ≤ 0xffff then
      [UInt8.ofNat (c.toNat / 4096 % 16 + 0xe0), UInt8.ofNat (c.toNat / 64 % 64 + 128),
        UInt8.ofNat (c.toNat % 64 + 128)]
    else
      [UInt8.ofNat (c.toNat / 262144 % 8 + 0xf0), UInt8.ofNat (c.toNat / 4096 % 64 + 128),
        UInt8.ofNat (c.toNat / 64 % 64 + 128), UInt8.ofNat (c.toNat % 64 + 128)] := rfl

/-- The bytes of a character are read as one fragment, whatever follows. -/
theorem fragmentsFrom_encode (c : Char) (bs : List UInt8) :
    fragmentsFrom none (String.utf8EncodeChar c ++ bs) = .char c :: fragmentsFrom none bs := by
  have hc := toNat_valid c
  have he : Char.ofNat c.toNat = c := Char.ofNat_toNat c
  generalize hn : c.toNat = n at hc he
  rw [utf8EncodeChar_eq, hn]
  split
  · simp only [List.cons_append, List.nil_append]
    rw [fragmentsFrom_char (start_one (by omega)), he]
  split
  · have hv : 64 * (n / 64 % 32 + 0xc0 - 0xc0) + (n % 64 + 128) % 64 = n := by omega
    simp only [List.cons_append, List.nil_append]
    rw [fragmentsFrom_opens (start_two (by omega)),
      fragmentsFrom_last (by rw [toNat_tail]; omega), toNat_tail, hv, he]
  split
  · have hv : 64 * (64 * (n / 4096 % 16 + 0xe0 - 0xe0) + (n / 64 % 64 + 128) % 64) +
        (n % 64 + 128) % 64 = n := by omega
    simp only [List.cons_append, List.nil_append]
    rw [fragmentsFrom_opens (start_three (by omega)),
      fragmentsFrom_more (by rw [toNat_tail]; split <;> split <;> omega), toNat_tail,
      fragmentsFrom_last (by rw [toNat_tail]; omega), toNat_tail, hv, he]
  · have hv : 64 * (64 * (64 * (n / 262144 % 8 + 0xf0 - 0xf0) + (n / 4096 % 64 + 128) % 64) +
        (n / 64 % 64 + 128) % 64) + (n % 64 + 128) % 64 = n := by omega
    simp only [List.cons_append, List.nil_append]
    rw [fragmentsFrom_opens (start_four (by omega)),
      fragmentsFrom_more (by rw [toNat_tail]; split <;> split <;> omega), toNat_tail,
      fragmentsFrom_more (by rw [toNat_tail]; omega), toNat_tail,
      fragmentsFrom_last (by rw [toNat_tail]; omega), toNat_tail, hv, he]

theorem encode_cons (c : Char) (cs : List Char) :
    encode (c :: cs) = String.utf8EncodeChar c ++ encode cs := rfl

theorem encode_append (cs ds : List Char) : encode (cs ++ ds) = encode cs ++ encode ds :=
  List.flatMap_append

/-- The bytes of a text come apart into its characters. -/
theorem fragments_encode (cs : List Char) : fragments (encode cs) = cs.map Fragment.char := by
  induction cs with
  | nil => rfl
  | cons c cs ih =>
    rw [encode_cons, fragments, fragmentsFrom_encode, ← fragments, ih, List.map_cons]

/-- Reading with replacement gives back a text that was written. -/
theorem decode_encode (cs : List Char) : decode (encode cs) = cs := by
  rw [decode, fragments_encode, List.map_map]
  exact List.map_id cs

/-- Nothing in a text that was written is refused. -/
theorem decodeStrict_encode (cs : List Char) : decodeStrict (encode cs) = .ok cs := by
  rw [decodeStrict, fragments_encode]
  generalize 0 = offset
  induction cs generalizing offset with
  | nil => rfl
  | cons c cs ih =>
    rw [List.map_cons, strictFrom, ih]
    rfl

/-! ## ASCII -/

theorem encode_ascii {cs : List Char} (h : ∀ c ∈ cs, c.toNat < 0x80) :
    encode cs = cs.map fun c => UInt8.ofNat c.toNat := by
  induction cs with
  | nil => rfl
  | cons c cs ih =>
    have hc := h c List.mem_cons_self
    rw [encode_cons, ih fun d hd => h d (List.mem_cons_of_mem c hd), utf8EncodeChar_eq,
      if_pos (by omega), List.map_cons, List.cons_append, List.nil_append]

/-- Only the characters within ASCII have bytes within it. -/
theorem le_of_mem_utf8EncodeChar {c : Char} (h : ¬ c.toNat < 0x80) {b : UInt8}
    (hb : b ∈ String.utf8EncodeChar c) : 0x80 ≤ b.toNat := by
  have hc := toNat_valid c
  rw [utf8EncodeChar_eq, if_neg (by omega)] at hb
  split at hb
  · simp only [List.mem_cons, List.not_mem_nil, or_false] at hb
    rcases hb with rfl | rfl <;> rw [toNat_ofNat (by omega)] <;> omega
  split at hb
  · simp only [List.mem_cons, List.not_mem_nil, or_false] at hb
    rcases hb with rfl | rfl | rfl <;> rw [toNat_ofNat (by omega)] <;> omega
  · simp only [List.mem_cons, List.not_mem_nil, or_false] at hb
    rcases hb with rfl | rfl | rfl | rfl <;> rw [toNat_ofNat (by omega)] <;> omega

/-- What is left of a text when the bytes outside ASCII are dropped: its characters within ASCII. -/
theorem ascii_encode_eq (cs : List Char) :
    ((encode cs).filter fun b => b < 0x80).map (fun b => Char.ofNat b.toNat) =
      cs.filter fun c => c.toNat < 0x80 := by
  induction cs with
  | nil => rfl
  | cons c cs ih =>
    rw [encode_cons, List.filter_append, List.map_append, ih]
    by_cases hc : c.toNat < 0x80
    · have hb : UInt8.ofNat c.toNat < 0x80 := by
        rw [UInt8.lt_iff_toNat_lt, toNat_ofNat (by omega)]
        exact hc
      rw [utf8EncodeChar_eq, if_pos (by omega), List.filter_cons_of_pos (by simpa using hb),
        List.filter_cons_of_pos (by simpa using hc), List.filter_nil, List.map_singleton,
        toNat_ofNat (by omega), Char.ofNat_toNat, List.singleton_append]
    · have hn : (String.utf8EncodeChar c).filter (fun b => b < 0x80) = [] := by
        rw [List.filter_eq_nil_iff]
        intro b hb
        have := le_of_mem_utf8EncodeChar hc hb
        rw [decide_eq_true_eq, UInt8.lt_iff_toNat_lt]
        exact Nat.not_lt.2 this
      rw [hn, List.filter_cons_of_neg (by simpa using hc), List.map_nil, List.nil_append]

theorem ascii_encode {cs : List Char} (h : ∀ c ∈ cs, c.toNat < 0x80) :
    ((encode cs).filter fun b => b < 0x80).map (fun b => Char.ofNat b.toNat) = cs := by
  rw [ascii_encode_eq, List.filter_eq_self.2 (by simpa using h)]

/-- A byte within ASCII is a character of its own, and the text is cut there. -/
theorem encode_eq_append_cons {cs : List Char} {head rest : List UInt8} {b : UInt8}
    (h : encode cs = head ++ b :: rest) (hb : b.toNat < 0x80) :
    ∃ before after, cs = before ++ Char.ofNat b.toNat :: after ∧ encode before = head ∧
      encode after = rest := by
  induction cs generalizing head with
  | nil => simp [encode] at h
  | cons c cs ih =>
    rw [encode_cons] at h
    rcases List.append_eq_append_iff.1 h with ⟨more, rfl, hm⟩ | ⟨more, hc, hm⟩
    · obtain ⟨before, after, rfl, rfl, rfl⟩ := ih hm
      exact ⟨c :: before, after, rfl, rfl, rfl⟩
    · cases more with
      | nil =>
        rw [List.append_nil] at hc
        obtain ⟨before, after, rfl, he, rfl⟩ := ih (show encode cs = [] ++ b :: rest from hm.symm)
        rw [← hc]
        refine ⟨c :: before, after, rfl, ?_, rfl⟩
        rw [encode_cons, he, List.append_nil]
      | cons d more =>
        -- The byte is one of the bytes of the first character.
        rw [List.cons_append] at hm
        obtain ⟨rfl, rfl⟩ := List.cons.inj hm
        by_cases hs : c.toNat < 0x80
        · rw [utf8EncodeChar_eq, if_pos (by omega)] at hc
          have hn := congrArg List.length hc
          simp only [List.length_append, List.length_cons, List.length_nil] at hn
          obtain rfl : head = [] := List.length_eq_zero_iff.1 (by omega)
          obtain rfl : more = [] := List.length_eq_zero_iff.1 (by omega)
          obtain rfl := (List.cons.inj hc).1
          refine ⟨[], cs, ?_, rfl, rfl⟩
          rw [toNat_ofNat (by omega), Char.ofNat_toNat, List.nil_append]
        · have := le_of_mem_utf8EncodeChar hs (hc ▸ by simp : b ∈ String.utf8EncodeChar c)
          omega

/-- A byte of ASCII at the start is a character of its own. -/
theorem encode_eq_cons {cs : List Char} {rest : List UInt8} {b : UInt8}
    (h : encode cs = b :: rest) (hb : b.toNat < 0x80) :
    ∃ after, cs = Char.ofNat b.toNat :: after ∧ encode after = rest := by
  have hnil : encode cs = [] ++ b :: rest := h
  obtain ⟨before, after, rfl, he, ha⟩ := encode_eq_append_cons hnil hb
  have hn : before = [] := by
    rw [← decode_encode before, he]
    rfl
  rw [hn]
  exact ⟨after, rfl, ha⟩

end GhostText.Text.Utf8
