import GhostText.Proofs.Text.Breaks
import GhostText.Proofs.Text.Digits
import GhostText.Proofs.Text.Utf8
import GhostText.Proofs.Wire.Chunks

/-!
# Frames one after another

The header written for a body gives its length back, and the first end of a header behind it is its
own. So a row of frames is read as their bodies, and nothing of it is left in the buffer.
-/

namespace GhostText.Frame

/-! ## The end of a header -/

/-- A header ends at the separator behind it where none begins before. -/
theorem splitHeader_separator {head : Bytes} (h : ¬ separator <:+: head ++ [13, 10, 13])
    (rest : Bytes) : splitHeader (head ++ (separator ++ rest)) = some (head, rest) := by
  induction head with
  | nil =>
    have hp : separator.isPrefixOf (13 :: ([10, 13, 10] ++ rest)) :=
      List.isPrefixOf_iff_prefix.2 (List.prefix_append separator rest)
    change splitHeader (13 :: ([10, 13, 10] ++ rest)) = some ([], rest)
    rw [splitHeader, if_pos hp]
    rfl
  | cons b head ih =>
    rw [List.cons_append, List.infix_cons_iff, not_or] at h
    have hl : separator.length ≤ (b :: (head ++ [13, 10, 13])).length := by simp [separator]
    have hp : ¬ separator.isPrefixOf (b :: (head ++ (separator ++ rest))) := fun e => by
      have he : b :: (head ++ (separator ++ rest)) =
          b :: (head ++ [13, 10, 13]) ++ 10 :: rest := by simp [separator]
      rw [he, List.isPrefixOf_iff_prefix, List.isPrefix_append_of_length hl] at e
      exact h.1 e
    rw [List.cons_append, splitHeader, if_neg hp, ih h.2, Option.map_some]

/-- Without a carriage return before it the first empty line is the one behind the header. -/
theorem not_infix_of_not_mem {head : Bytes} (h : 13 ∉ head) :
    ¬ separator <:+: head ++ [13, 10, 13] := by
  intro hi
  obtain ⟨a, b, he, ha, hb⟩ := List.sublist_append_iff.1 hi.sublist
  cases a with
  | nil =>
    rw [List.nil_append] at he
    exact absurd (he ▸ hb.length_le) (by decide)
  | cons c a =>
    have hc : 13 = c := (List.cons.inj he).1
    exact h (hc ▸ ha.subset List.mem_cons_self)

/-! ## The length in a header -/

/-- The length field decides on the length. -/
theorem lengthIn_field {key value : Text} (hk : ':' ∉ key)
    (hf : Text.fold (Text.trim (String.ofList key)) = "content-length") (ls : List Text) :
    lengthIn ((key ++ ':' :: value) :: ls) =
      match Text.readInteger (Text.trim (String.ofList value)) with
      | .ok n => if n < 0 then none else some n.toNat
      | .error _ => none := by
  have hc : ∀ c ∈ key, (c != ':') = true := by
    intro c hc
    rw [bne_iff_ne]
    rintro rfl
    exact hk hc
  have ht : (key ++ ':' :: value).takeWhile (· != ':') = key := by
    rw [List.takeWhile_append_of_pos hc]
    simp
  have hd : (key ++ ':' :: value).dropWhile (· != ':') = ':' :: value := by
    rw [List.dropWhile_append_of_pos hc]
    simp
  have hs : (!(key ++ ':' :: value).contains ':' ||
      Text.fold (Text.trim (String.ofList key)) != "content-length") = false := by simp [hf]
  cases hr : Text.readInteger (Text.trim (String.ofList value)) with
  | ok n =>
    simp only [lengthIn, ht, hd, hs, hr, List.drop_one, List.tail_cons, Bool.false_eq_true,
      if_false]
  | error e =>
    simp only [lengthIn, ht, hd, hs, hr, List.drop_one, List.tail_cons, Bool.false_eq_true,
      if_false]

theorem header_eq (n : Nat) :
    header n = "Content-Length".toList ++ ':' :: ' ' :: Nat.toDigits 10 n := by
  change "Content-Length: ".toList ++ Nat.toDigits 10 n = _
  simp

section Field

variable {ds : Text}

theorem field_ascii (hd : ∀ c ∈ ds, c.isDigit) {c : Char}
    (h : c ∈ "Content-Length".toList ++ ':' :: ' ' :: ds) : c.toNat < 0x80 ∧ c ≠ '\r' := by
  have hl : ∀ c ∈ "Content-Length".toList, c.toNat < 0x80 ∧ c ≠ '\r' := by simp
  rw [List.mem_append, List.mem_cons, List.mem_cons] at h
  rcases h with h | rfl | rfl | h
  · exact hl c h
  · decide
  · decide
  · have hn := Text.toNat_of_isDigit (hd c h)
    refine ⟨by omega, ?_⟩
    rintro rfl
    exact absurd hn (by decide)

/-- The blank before the digits of a length is cut off. -/
theorem trim_digits (hd : ∀ c ∈ ds, c.isDigit) :
    Text.trim (String.ofList (' ' :: ds)) = String.ofList ds := by
  have hb : ∀ c ∈ ds, Text.isBlank c = false := fun c hc => Text.isBlank_of_isDigit (hd c hc)
  have ht := Text.trimClass_eq_self hb
  rw [Text.trim, String.toList_ofList]
  exact congrArg String.ofList ht

/-- A header that is the length field alone says what its digits say. -/
theorem contentLength?_field (hd : ∀ c ∈ ds, c.isDigit) :
    contentLength? (Text.Utf8.encode ("Content-Length".toList ++ ':' :: ' ' :: ds)) =
      match Text.readInteger (String.ofList ds) with
      | .ok n => if n < 0 then none else some n.toNat
      | .error _ => none := by
  have hp := Text.pieces_eq_singleton (b := .crlf) fun hi =>
    (field_ascii hd (hi.subset (by simp : '\r' ∈ LineBreak.crlf.text))).2 rfl
  simp only [contentLength?, Text.Utf8.ascii_encode fun c hc => (field_ascii hd hc).1, hp]
  rw [lengthIn_field (by simp) (by decide +kernel), trim_digits hd]

theorem not_mem_field (hd : ∀ c ∈ ds, c.isDigit) :
    13 ∉ Text.Utf8.encode ("Content-Length".toList ++ ':' :: ' ' :: ds) := by
  rw [Text.Utf8.encode_ascii fun c hc => (field_ascii hd hc).1, List.mem_map]
  rintro ⟨c, hc, he⟩
  have hn := congrArg UInt8.toNat he
  rw [Text.Utf8.toNat_ofNat (by have := (field_ascii hd hc).1; omega)] at hn
  refine (field_ascii hd hc).2 ?_
  rw [← Char.ofNat_toNat c, hn]
  rfl

end Field

/-- The header that is written for a body gives its length. -/
theorem contentLength?_header {n : Nat} (h : (Nat.toDigits 10 n).length ≤ Text.digitLimit) :
    contentLength? (Text.Utf8.encode (header n)) = some n := by
  rw [header_eq, contentLength?_field fun c => Text.isDigit_of_mem_toDigits,
    Text.readInteger_toDigits h]
  rfl

theorem not_mem_header (n : Nat) : 13 ∉ Text.Utf8.encode (header n) := by
  rw [header_eq]
  exact not_mem_field fun c => Text.isDigit_of_mem_toDigits

/-! ## Frames -/

/-- A body whose length has no more digits than are read again. No memory holds another one: it
would have 10 to the power of 4300 bytes or more. -/
def Fits (body : Bytes) : Prop := (Nat.toDigits 10 body.length).length ≤ Text.digitLimit

instance : DecidablePred Fits := fun _ => inferInstanceAs (Decidable (_ ≤ _))

/-- A frame is read as its body, and reading goes on behind it. -/
theorem drain_ofBody {body : Bytes} (h : Fits body) (rest : Bytes) :
    drain (ofBody body ++ rest) none =
      Completed.append ⟨[Body.ofBytes body], [], Reader.fresh⟩ (drain rest none) := by
  have hh := not_infix_of_not_mem (not_mem_header body.length)
  have hs := splitHeader_separator hh (body ++ rest)
  have hl : body.length ≤ (body ++ rest).length := by simp
  simp only [ofBody, List.append_assoc]
  rw [drain_header hs (contentLength?_header h), drain_body hl, List.drop_left, List.take_left]
  rfl

/-- Frames in a row are read as their bodies, whatever the bodies are. -/
theorem drain_frames {bodies : List Bytes} (h : ∀ body ∈ bodies, Fits body) (rest : Bytes) :
    drain ((bodies.map ofBody).flatten ++ rest) none =
      Completed.append ⟨bodies.map Body.ofBytes, [], Reader.fresh⟩ (drain rest none) := by
  induction bodies with
  | nil => rfl
  | cons body bodies ih =>
    rw [List.map_cons, List.flatten_cons, List.append_assoc,
      drain_ofBody (h body List.mem_cons_self), ih fun b hb => h b (List.mem_cons_of_mem body hb),
      ← Completed.append_assoc]
    rfl

end GhostText.Frame
