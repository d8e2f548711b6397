import GhostText.Proofs.Wire.Frames
import Mathlib.Data.List.Forall2

/-!
# Headers with other lines in them

A header is made of lines, and any of them may stand around the one that gives the length. A body
is what the length says, whatever bytes it is made of, so a body that is no value leaves its
neighbours alone, and a header without a length that stands between two frames is passed over.

Only the bytes within ASCII are read of a header. The others are dropped before it is cut into
lines, so they can join and name lines that were not written.
-/

namespace GhostText.Frame

def lineEnd : Bytes := [13, 10]

/-- What is read of a header: its bytes within ASCII, cut into lines. -/
def linesOf (header : Bytes) : List Text :=
  Text.pieces LineBreak.crlf.text
    ((header.filter fun b => b < 0x80).map fun b => Char.ofNat b.toNat)

/-- The length is looked for line by line. -/
theorem contentLength?_eq (header : Bytes) :
    contentLength? header = lengthIn (linesOf header) := rfl

/-- The line is a field with the name of the length, in any case and with blanks around it. -/
def NamesLength (line : Text) : Prop :=
  ':' ∈ line ∧
    Text.fold (Text.trim (String.ofList (line.takeWhile (· != ':')))) = "content-length"

instance : DecidablePred NamesLength := fun _ => inferInstanceAs (Decidable (_ ∧ _))

/-- The first field of a header with that name gives the number, in decimal digits with zeros before
them and blanks around them. No more digits are written than are read. -/
def Announces (header : Bytes) (n : Nat) : Prop :=
  ∃ before name value after zeros,
    linesOf header = before ++ (name ++ ':' :: value) :: after ∧
      (∀ line ∈ before, ¬ NamesLength line) ∧ ':' ∉ name ∧
      Text.fold (Text.trim (String.ofList name)) = "content-length" ∧
      Text.trim (String.ofList value) =
        String.ofList (List.replicate zeros '0' ++ Nat.toDigits 10 n) ∧
      zeros + (Nat.toDigits 10 n).length ≤ Text.digitLimit

/-! ## The length among other lines -/

/-- A line that is not named after the length is passed over. -/
theorem lengthIn_other {line : Text} (h : ¬ NamesLength line) (lines : List Text) :
    lengthIn (line :: lines) = lengthIn lines := by
  have hs : (!line.contains ':' ||
      Text.fold (Text.trim (String.ofList (line.takeWhile (· != ':')))) !=
        "content-length") = true := by
    by_cases hc : ':' ∈ line
    · have hf : Text.fold (Text.trim (String.ofList (line.takeWhile (· != ':')))) ≠
          "content-length" := fun hf => h ⟨hc, hf⟩
      simp [hf]
    · simp [hc]
  simp only [lengthIn, hs, if_true]

/-- Lines that do not name a length do not count. -/
theorem lengthIn_others {before : List Text} (h : ∀ line ∈ before, ¬ NamesLength line)
    (lines : List Text) : lengthIn (before ++ lines) = lengthIn lines := by
  induction before with
  | nil => rfl
  | cons line before ih =>
    rw [List.cons_append, lengthIn_other (h line List.mem_cons_self)]
    exact ih fun l hl => h l (List.mem_cons_of_mem line hl)

/-- Zeros before a number do not count. -/
theorem ofDigits_zeros (zeros : Nat) (ds : List Nat) :
    Text.ofDigits (List.replicate zeros 0 ++ ds) = Text.ofDigits ds := by
  induction zeros with
  | zero => rfl
  | succ zeros ih => rw [List.replicate_succ, List.cons_append, ← ih]; rfl

theorem isDigit_of_mem_zeros {zeros n : Nat} {c : Char}
    (h : c ∈ List.replicate zeros '0' ++ Nat.toDigits 10 n) : c.isDigit := by
  rcases List.mem_append.1 h with h | h
  · rw [List.eq_of_mem_replicate h]
    rfl
  · exact Text.isDigit_of_mem_toDigits h

/-- Zeros before the digits of a number do not change it. -/
theorem readInteger_zeros {zeros n : Nat}
    (h : zeros + (Nat.toDigits 10 n).length ≤ Text.digitLimit) :
    Text.readInteger (String.ofList (List.replicate zeros '0' ++ Nat.toDigits 10 n)) = .ok n := by
  have hne : List.replicate zeros '0' ++ Nat.toDigits 10 n ≠ [] := by simp [Nat.toDigits_ne_nil]
  rw [Text.readInteger_digits hne fun c => isDigit_of_mem_zeros,
    if_neg (Nat.not_lt.2 (by simpa using h)), List.map_append, List.map_replicate]
  have hz := ofDigits_zeros zeros ((Nat.toDigits 10 n).map fun c => c.toNat - 48)
  rw [Text.ofDigits_toDigits] at hz
  exact congrArg (fun m : Nat => Except.ok (m : Int)) hz

/-- A header that announces a length gives it, whatever other lines stand around. -/
theorem contentLength?_announces {header : Bytes} {n : Nat} (h : Announces header n) :
    contentLength? header = some n := by
  obtain ⟨before, name, value, after, zeros, hl, hb, hn, hf, hv, hz⟩ := h
  rw [contentLength?_eq, hl, lengthIn_others hb, lengthIn_field hn hf, hv, readInteger_zeros hz]
  rfl

/-! ## The end of a header of several lines -/

/-- A header as its lines: none of them is empty and none has an end of a line in it. -/
structure Head where
  lines : List Bytes
  nonempty : ∀ line ∈ lines, line ≠ []
  unbroken : ∀ line ∈ lines, ¬ lineEnd <:+: line

def Head.bytes (h : Head) : Bytes := lineEnd.intercalate h.lines

/-- The end of a line is not found before the line ends. -/
theorem not_prefix_line {line : Bytes} (hne : line ≠ []) (hl : ¬ lineEnd <:+: line)
    (rest : Bytes) : ¬ lineEnd <+: line ++ (lineEnd ++ rest) := by
  intro hp
  obtain ⟨b, line, rfl⟩ := List.exists_cons_of_ne_nil hne
  obtain ⟨hb, hq⟩ := List.cons_prefix_cons.1 hp
  cases line with
  | nil => exact absurd (List.cons_prefix_cons.1 hq).1 (by decide)
  | cons c line =>
    obtain ⟨hc, -⟩ := List.cons_prefix_cons.1 hq
    rw [← hb, ← hc] at hl
    exact hl (List.prefix_append lineEnd line).isInfix

/-- No end of a header begins in a line, unless one begins behind it. -/
theorem not_infix_line {line rest : Bytes} (hl : ¬ lineEnd <:+: line)
    (hr : ¬ separator <:+: rest) (hs : ¬ lineEnd <+: rest) :
    ¬ separator <:+: line ++ (lineEnd ++ rest) := by
  induction line with
  | nil =>
    rw [List.nil_append]
    intro hi
    rcases List.infix_cons_iff.1 hi with hp | hi
    · exact hs ((List.prefix_append_right_inj lineEnd).1 hp)
    · rcases List.infix_cons_iff.1 hi with hp | hi
      · exact absurd (List.cons_prefix_cons.1 hp).1 (by decide)
      · exact hr hi
  | cons b line ih =>
    have hp := not_prefix_line (List.cons_ne_nil b line) hl rest
    rw [List.infix_cons_iff, not_or] at hl
    rw [List.cons_append, List.infix_cons_iff, not_or]
    exact ⟨fun h => hp ((List.prefix_append lineEnd lineEnd).trans h), ih hl.2⟩

/-- Lines that are not empty, each with its end, are no end of a header before the last end. -/
theorem not_infix_lines {lines : List Bytes} (hne : ∀ line ∈ lines, line ≠ [])
    (hl : ∀ line ∈ lines, ¬ lineEnd <:+: line) :
    ¬ separator <:+: lines.flatMap (· ++ lineEnd) ++ [13] ∧
      ¬ lineEnd <+: lines.flatMap (· ++ lineEnd) ++ [13] := by
  induction lines with
  | nil => decide
  | cons line lines ih =>
    have hu := hl line List.mem_cons_self
    obtain ⟨hi, hp⟩ := ih (fun l hm => hne l (List.mem_cons_of_mem line hm))
      fun l hm => hl l (List.mem_cons_of_mem line hm)
    rw [List.flatMap_cons, List.append_assoc, List.append_assoc]
    exact ⟨not_infix_line hu hi hp, not_prefix_line (hne line List.mem_cons_self) hu _⟩

theorem intercalate_append (line : Bytes) (lines : List Bytes) :
    lineEnd.intercalate (line :: lines) ++ lineEnd =
      (line :: lines).flatMap (· ++ lineEnd) := by
  induction lines generalizing line with
  | nil => simp
  | cons next lines ih =>
    rw [List.intercalate_cons_cons, List.append_assoc, ih]
    simp

/-- A header of several lines ends at the first empty one. -/
theorem Head.splitHeader_bytes (h : Head) (rest : Bytes) :
    splitHeader (h.bytes ++ (separator ++ rest)) = some (h.bytes, rest) := by
  apply splitHeader_separator
  obtain ⟨lines, hne, hl⟩ := h
  cases lines with
  | nil => exact not_infix_of_not_mem List.not_mem_nil
  | cons line lines =>
    have hi := (not_infix_lines hne hl).1
    rw [← intercalate_append, List.append_assoc] at hi
    exact hi

/-! ## Blocks in a row -/

/-- What may stand in a row: a header with the length of the body behind it, or a header that gives
no length, with no body. -/
inductive Block where
  | frame (head : Head) (body : Bytes) (announced : Announces head.bytes body.length)
  | stray (head : Head) (useless : contentLength? head.bytes = none)

namespace Block

def bytes : Block → Bytes
  | frame head body _ => head.bytes ++ (separator ++ body)
  | stray head _ => head.bytes ++ (separator ++ [])

def body? : Block → Option Bytes
  | frame _ body _ => some body
  | stray _ _ => none

def stray? : Block → Option Bytes
  | frame _ _ _ => none
  | stray head _ => some head.bytes

end Block

/-- What is to be given back for the bytes of a body: the value they spell, or their text with what
is wrong with it. -/
def Body.Shows (bytes : Bytes) : Body → Prop
  | .value v => Json.read (Text.Utf8.decode bytes) = .ok v
  | .malformed raw e => raw = Text.Utf8.decode bytes ∧ Json.read raw = .error e

/-- The bytes of a body decide on what is given back. -/
theorem Body.shows_iff (bytes : Bytes) (body : Body) : body.Shows bytes ↔ body = ofBytes bytes := by
  rw [ofBytes]
  cases hr : Json.read (Text.Utf8.decode bytes) with
  | ok v =>
    cases body with
    | value w => simp [Shows, hr, eq_comm]
    | malformed raw e =>
      simp only [Shows, reduceCtorEq, iff_false, not_and]
      rintro rfl
      simp [hr]
  | error e =>
    cases body with
    | value w => simp [Shows, hr]
    | malformed raw e' =>
      simp only [Shows, malformed.injEq]
      constructor
      · rintro ⟨rfl, he⟩
        rw [hr] at he
        exact ⟨rfl, (Except.error.inj he).symm⟩
      · rintro ⟨rfl, rfl⟩
        exact ⟨rfl, hr⟩

/-- A block is read up to its end, whatever is behind it. -/
theorem drain_block (block : Block) (rest : Bytes) :
    drain (block.bytes ++ rest) none =
      Completed.append ⟨block.body?.toList.map Body.ofBytes, block.stray?.toList, Reader.fresh⟩
        (drain rest none) := by
  cases block with
  | frame head body announced =>
    have hs := head.splitHeader_bytes (body ++ rest)
    simp only [Block.bytes, List.append_assoc]
    rw [drain_header hs (contentLength?_announces announced), drain_body (by simp), List.drop_left,
      List.take_left]
    rfl
  | stray head useless =>
    have hs := head.splitHeader_bytes rest
    simp only [Block.bytes, List.append_assoc, List.nil_append]
    rw [drain_skip hs useless]
    rfl

/-- Blocks in a row are read as their bodies, and the stray ones are passed over. -/
theorem drain_blocks (blocks : List Block) (rest : Bytes) :
    drain ((blocks.map Block.bytes).flatten ++ rest) none =
      Completed.append ⟨(blocks.filterMap Block.body?).map Body.ofBytes,
        blocks.filterMap Block.stray?, Reader.fresh⟩ (drain rest none) := by
  induction blocks with
  | nil => rfl
  | cons block blocks ih =>
    rw [List.map_cons, List.flatten_cons, List.append_assoc, drain_block, ih,
      ← Completed.append_assoc]
    cases block <;> rfl

/-- Every body is given back as what it is, in order and whatever its bytes are, and nothing else
is: headers without a length are passed over, and nothing stays behind, wherever the bytes are
cut. -/
theorem Reader.answers_blocks {blocks : List Block} {pieces : List Bytes}
    (hp : pieces.flatten = (blocks.map Block.bytes).flatten) :
    List.Forall₂ Body.Shows (blocks.filterMap Block.body?)
        ((fresh.answers pieces).flatMap Completed.bodies) ∧
      (fresh.answers pieces).flatMap Completed.skipped = blocks.filterMap Block.stray? ∧
      fresh.after pieces = fresh := by
  have hd := drain_blocks blocks []
  have hw : drain [] none = ⟨[], [], fresh⟩ := drain_waiting rfl
  rw [List.append_nil, hw] at hd
  have hc := collected_eq_feed Reachable.fresh.settled pieces
  rw [hp] at hc
  have he := hc.trans hd
  have hb : (fresh.answers pieces).flatMap Completed.bodies =
      (blocks.filterMap Block.body?).map Body.ofBytes :=
    (congrArg Completed.bodies he).trans (List.append_nil _)
  refine ⟨?_, (congrArg Completed.skipped he).trans (List.append_nil _),
    congrArg Completed.reader he⟩
  rw [hb, List.forall₂_map_right_iff, List.forall₂_same]
  exact fun bytes _ => (Body.shows_iff bytes _).2 rfl

/-- Read one byte at a time: a body of two bytes that are no text, under a length with other case
and other lines around it, a header without a length, an empty body, and one that looks like a
header. -/
theorem Reader.answers_blocks_single_bytes :
    let two := ["X: 1", "CONTENT-length : 002", "Content-Length: 7"].map Text.Utf8.encodeString
    let negative := ["Content-Length: -1", "y"].map Text.Utf8.encodeString
    let zero := ["Content-Length:0"].map Text.Utf8.encodeString
    let more := ["Content-Length: 26", "Z"].map Text.Utf8.encodeString
    let header := Text.Utf8.encodeString "\r\n\r\nContent-Length: 99\r\n\r\n"
    ∃ blocks : List Block, ∃ pieces : List Bytes,
      blocks.map Block.bytes = [lineEnd.intercalate two ++ (separator ++ [0xff, 0xfe]),
        lineEnd.intercalate negative ++ separator, lineEnd.intercalate zero ++ separator,
        lineEnd.intercalate more ++ (separator ++ header)] ∧
      pieces.flatten = (blocks.map Block.bytes).flatten ∧ (∀ piece ∈ pieces, piece.length = 1) ∧
      List.Forall₂ Body.Shows [[0xff, 0xfe], [], header]
        ((fresh.answers pieces).flatMap Completed.bodies) ∧
      (fresh.answers pieces).flatMap Completed.skipped = [lineEnd.intercalate negative] ∧
      fresh.after pieces = fresh := by
  intro two negative zero more header
  let blocks : List Block :=
    [.frame ⟨two, by decide +kernel, by decide +kernel⟩ [0xff, 0xfe]
      ⟨["X: 1".toList], "CONTENT-length ".toList, " 002".toList, ["Content-Length: 7".toList], 2,
        by decide +kernel⟩,
     .stray ⟨negative, by decide +kernel, by decide +kernel⟩ (by decide +kernel),
     .frame ⟨zero, by decide +kernel, by decide +kernel⟩ []
      ⟨[], "Content-Length".toList, "0".toList, [], 0, by decide +kernel⟩,
     .frame ⟨more, by decide +kernel, by decide +kernel⟩ header
      ⟨[], "Content-Length".toList, " 26".toList, ["Z".toList], 0, by decide +kernel⟩]
  let pieces : List Bytes := (blocks.map Block.bytes).flatten.map fun b => [b]
  have hp : pieces.flatten = (blocks.map Block.bytes).flatten := List.flatMap_singleton' _
  have hb : blocks.map Block.bytes = _ := rfl
  exact ⟨blocks, pieces, hb, hp, List.forall_mem_map.2 fun _ _ => rfl, answers_blocks hp⟩

/-! ## Where the length is not found -/

/-- More digits than are read make no length, also where most of them are zeros. -/
theorem contentLength?_tooLong {ds : Text} (hd : ∀ c ∈ ds, c.isDigit)
    (h : Text.digitLimit < ds.length) :
    contentLength? (Text.Utf8.encode ("Content-Length".toList ++ ':' :: ' ' :: ds)) = none := by
  have hne : ds ≠ [] := by
    rintro rfl
    simp at h
  rw [contentLength?_field hd, Text.readInteger_digits hne hd, if_pos h]

/-- The bytes of a header outside ASCII are dropped, so a line with another name is read as one
that gives the length. And no more than 4300 digits are read, also where most of them are zeros
before the number. Either way the body of the frame is not found. -/
theorem decodeAll_length_not_found :
    let accented := Text.Utf8.encodeString "Content-L\u00e9ength: 99"
    let length := Text.Utf8.encodeString "Content-Length: 2"
    let zeros := Text.Utf8.encodeString "Content-Length: " ++ List.replicate 4300 48 ++ [50]
    let body := Text.Utf8.encodeString "\x7b\x7d"
    ¬ NamesLength (Text.Utf8.decode accented) ∧ Announces length body.length ∧
      decodeAll (lineEnd.intercalate [accented, length] ++ (separator ++ body)) = [] ∧
      decodeAll (zeros ++ (separator ++ body)) = [] := by
  intro accented length zeros body
  have hd : ∀ c ∈ List.replicate 4300 '0' ++ Nat.toDigits 10 2, c.isDigit := fun c =>
    isDigit_of_mem_zeros
  have hz : zeros = Text.Utf8.encode ("Content-Length".toList ++
      ':' :: ' ' :: (List.replicate 4300 '0' ++ Nat.toDigits 10 2)) := by
    rw [Text.Utf8.encode_ascii fun c hc => (field_ascii hd hc).1, List.map_append, List.map_cons,
      List.map_cons, List.map_append, List.map_replicate]
    rfl
  have hs := splitHeader_separator (not_infix_of_not_mem (not_mem_field hd)) body
  have hl := contentLength?_tooLong hd (by rw [List.length_append, List.length_replicate]; decide)
  refine ⟨by decide +kernel,
    ⟨[], "Content-Length".toList, " 2".toList, [], 0, by decide +kernel⟩,
    List.length_eq_zero_iff.1 (by decide +kernel), ?_⟩
  rw [decodeAll, Reader.feed, Reader.fresh, List.nil_append, hz, drain_skip hs hl,
    drain_waiting (by decide +kernel)]

end GhostText.Frame
