import GhostText.Wire.Frame
import Mathlib.Data.List.Infix

/-!
# Frames in pieces

A reader takes the bytes as they come, and where they are cut does not count: what it reads from the
pieces, and what it keeps, is what it reads from all of them at once. The pieces may be empty and
may end anywhere, inside a header, inside its end or inside a character.
-/

namespace GhostText.Frame

/-- A header is found where it is followed by the first end of a header. -/
theorem eq_append_of_splitHeader {bs head rest : Bytes} (h : splitHeader bs = some (head, rest)) :
    bs = head ++ separator ++ rest := by
  induction bs generalizing head rest with
  | nil => simp [splitHeader] at h
  | cons b bs ih =>
    rw [splitHeader] at h
    split at h
    · next hp =>
      obtain ⟨more, hm⟩ := List.isPrefixOf_iff_prefix.1 hp
      simp only [Option.some.injEq, Prod.mk.injEq] at h
      rw [← h.1, ← h.2, ← hm, List.drop_left, List.nil_append]
    · obtain ⟨r, hr, he⟩ := Option.map_eq_some_iff.1 h
      simp only [Prod.mk.injEq] at he
      rw [← he.1, ← he.2, List.cons_append, List.cons_append, ← ih hr]

/-- There is no header as long as no empty line has come. -/
theorem splitHeader_eq_none_iff (bs : Bytes) : splitHeader bs = none ↔ ¬ separator <:+: bs := by
  induction bs with
  | nil => simp [splitHeader, separator]
  | cons b bs ih =>
    rw [splitHeader, List.infix_cons_iff]
    by_cases hp : separator <+: b :: bs
    · simp [List.isPrefixOf_iff_prefix.2 hp, hp]
    · have hf : separator.isPrefixOf (b :: bs) = false :=
        Bool.eq_false_iff.2 fun e => hp (List.isPrefixOf_iff_prefix.1 e)
      simp [hf, hp, ih]

/-- A header that is found stays the first one when more bytes come. -/
theorem splitHeader_append {bs head rest : Bytes} (h : splitHeader bs = some (head, rest))
    (more : Bytes) : splitHeader (bs ++ more) = some (head, rest ++ more) := by
  induction bs generalizing head rest with
  | nil => simp [splitHeader] at h
  | cons b bs ih =>
    have hlen : separator.length ≤ (b :: bs).length := by
      rw [eq_append_of_splitHeader h]
      simp only [List.length_append]
      omega
    have hp : separator.isPrefixOf (b :: bs ++ more) = separator.isPrefixOf (b :: bs) := by
      rw [Bool.eq_iff_iff, List.isPrefixOf_iff_prefix, List.isPrefixOf_iff_prefix]
      exact List.isPrefix_append_of_length hlen
    rw [splitHeader] at h
    rw [List.cons_append] at hp ⊢
    rw [splitHeader, hp, ← List.cons_append]
    split at h
    · next hs =>
      simp only [Option.some.injEq, Prod.mk.injEq] at h
      rw [if_pos hs, List.drop_append_of_le_length hlen, h.1, h.2]
    · next hs =>
      obtain ⟨r, hr, he⟩ := Option.map_eq_some_iff.1 h
      simp only [Prod.mk.injEq] at he
      rw [if_neg hs, ih hr, Option.map_some, he.1, he.2]

/-! ## One equation for each thing a reader can do -/

section Drain

variable {buffer head rest : Bytes} {n : Nat}

theorem drain_waiting (h : splitHeader buffer = none) :
    drain buffer none = ⟨[], [], ⟨buffer, none⟩⟩ := by
  rw [drain]
  split
  · rfl
  · simp_all

theorem drain_nil : drain [] none = ⟨[], [], .fresh⟩ := drain_waiting rfl

/-- A header without a usable length is passed over. -/
theorem drain_skip (h : splitHeader buffer = some (head, rest))
    (hl : contentLength? head = none) :
    drain buffer none = { drain rest none with skipped := head :: (drain rest none).skipped } := by
  rw [drain]
  split
  · simp_all
  · simp_all

theorem drain_header (h : splitHeader buffer = some (head, rest))
    (hl : contentLength? head = some n) : drain buffer none = drain rest (some n) := by
  rw [drain]
  split
  · simp_all
  · simp_all

theorem drain_short (h : buffer.length < n) :
    drain buffer (some n) = ⟨[], [], ⟨buffer, some n⟩⟩ := by
  rw [drain, if_pos h]

/-- A body is complete once as many bytes have come as the header says. -/
theorem drain_body (h : n ≤ buffer.length) : drain buffer (some n) =
    { drain (buffer.drop n) none with
      bodies := Body.ofBytes (buffer.take n) :: (drain (buffer.drop n) none).bodies } := by
  conv => lhs; rw [drain]
  rw [if_neg (by omega)]

end Drain

/-- What became complete first, and then from what was kept. -/
def Completed.append (c d : Completed) : Completed :=
  ⟨c.bodies ++ d.bodies, c.skipped ++ d.skipped, d.reader⟩

theorem Completed.append_assoc (c d e : Completed) :
    (c.append d).append e = c.append (d.append e) := by
  simp [Completed.append]

/-- Taking frames from some bytes, and later from what was left with more bytes behind it, is taking
them from all the bytes. -/
theorem drain_append (buffer more : Bytes) (expected : Option Nat) :
    drain (buffer ++ more) expected = (drain buffer expected).append
      (drain ((drain buffer expected).reader.buffer ++ more)
        (drain buffer expected).reader.expected) := by
  fun_induction drain buffer expected with
  | case1 buffer h => rfl
  | case2 buffer head rest h hl c ih =>
    rw [drain_skip (splitHeader_append h more) hl, ih]
    rfl
  | case3 buffer head rest h n hl ih =>
    rw [drain_header (splitHeader_append h more) hl, ih]
  | case4 buffer n h => rfl
  | case5 buffer n h c ih =>
    have hn : n ≤ buffer.length := by omega
    rw [drain_body (by rw [List.length_append]; omega), List.drop_append_of_le_length hn,
      List.take_append_of_le_length hn, ih]
    rfl

namespace Reader

/-- No whole frame is held back: no header is complete, or the body that is due is not. -/
def Settled (r : Reader) : Prop :=
  match r.expected with
  | none => ¬ separator <:+: r.buffer
  | some n => r.buffer.length < n

/-- The states of a reader: it starts afresh, also when it is reset, and is fed. -/
inductive Reachable : Reader → Prop where
  | fresh : Reachable fresh
  | feed {r : Reader} (h : Reachable r) (bytes : Bytes) : Reachable (r.feed bytes).reader

/-- A reader that has drained its buffer waits for more. -/
theorem settled_drain (buffer : Bytes) (expected : Option Nat) :
    (drain buffer expected).reader.Settled := by
  fun_induction drain buffer expected with
  | case1 buffer h => exact (splitHeader_eq_none_iff buffer).1 h
  | case2 buffer head rest h hl c ih => exact ih
  | case3 buffer head rest h n hl ih => exact ih
  | case4 buffer n h => exact h
  | case5 buffer n h c ih => exact ih

theorem Reachable.settled {r : Reader} (h : r.Reachable) : r.Settled := by
  cases h with
  | fresh => simp [Settled, Reader.fresh, separator]
  | feed h bytes => exact settled_drain _ _

theorem feed_nil {r : Reader} (h : r.Settled) : r.feed [] = ⟨[], [], r⟩ := by
  obtain ⟨buffer, expected⟩ := r
  rw [feed, List.append_nil]
  cases expected with
  | none => exact drain_waiting ((splitHeader_eq_none_iff buffer).2 h)
  | some n => exact drain_short h

/-- Bytes that come in two pieces are read as if they had come at once. -/
theorem feed_append (r : Reader) (bytes more : Bytes) :
    r.feed (bytes ++ more) = (r.feed bytes).append ((r.feed bytes).reader.feed more) := by
  rw [feed, ← List.append_assoc]
  exact drain_append _ _ _

def answers (r : Reader) : List Bytes → List Completed
  | [] => []
  | piece :: rest => r.feed piece :: (r.feed piece).reader.answers rest

def after (r : Reader) : List Bytes → Reader
  | [] => r
  | piece :: rest => (r.feed piece).reader.after rest

def collected (r : Reader) (pieces : List Bytes) : Completed :=
  ⟨(r.answers pieces).flatMap Completed.bodies, (r.answers pieces).flatMap Completed.skipped,
    r.after pieces⟩

theorem collected_cons (r : Reader) (piece : Bytes) (rest : List Bytes) :
    r.collected (piece :: rest) =
      (r.feed piece).append ((r.feed piece).reader.collected rest) := rfl

/-- However the bytes are cut the same comes of them. -/
theorem collected_eq_feed {r : Reader} (h : r.Settled) (pieces : List Bytes) :
    r.collected pieces = r.feed pieces.flatten := by
  induction pieces generalizing r with
  | nil => exact (feed_nil h).symm
  | cons piece rest ih =>
    have hs : (r.feed piece).reader.Settled := settled_drain _ _
    rw [collected_cons, ih hs, List.flatten_cons, feed_append]

theorem settled_of_mem_answers {r : Reader} {pieces : List Bytes} {c : Completed}
    (h : c ∈ r.answers pieces) : c.reader.Settled := by
  induction pieces generalizing r with
  | nil => simp [answers] at h
  | cons piece rest ih =>
    rcases List.mem_cons.1 h with rfl | h
    · exact settled_drain _ _
    · exact ih h

/-- Where the bytes are cut does not count, and no whole frame is held back after any piece. -/
theorem answers_flatten {r : Reader} (h : r.Reachable) (pieces : List Bytes) :
    (r.answers pieces).flatMap Completed.bodies = (r.feed pieces.flatten).bodies ∧
      (r.answers pieces).flatMap Completed.skipped = (r.feed pieces.flatten).skipped ∧
      r.after pieces = (r.feed pieces.flatten).reader ∧
      ∀ c ∈ r.answers pieces, c.reader.Settled := by
  have hc := collected_eq_feed h.settled pieces
  exact ⟨congrArg Completed.bodies hc, congrArg Completed.skipped hc,
    congrArg Completed.reader hc, fun c hm => settled_of_mem_answers hm⟩

/-- A reader that was left inside the end of a header, fed an empty piece and the rest of that end
together with the start of a body. -/
theorem answers_flatten_inside_end :
    let r := (fresh.feed (Text.Utf8.encodeString "Content-Length: 2\r\n\r")).reader
    r.Reachable ∧
      (r.answers [[], [10, 0x22], [0x22]]).flatMap Completed.bodies =
        (r.feed [10, 0x22, 0x22]).bodies ∧
      (r.answers [[], [10, 0x22], [0x22]]).flatMap Completed.skipped =
        (r.feed [10, 0x22, 0x22]).skipped ∧
      r.after [[], [10, 0x22], [0x22]] = (r.feed [10, 0x22, 0x22]).reader ∧
      ∀ c ∈ r.answers [[], [10, 0x22], [0x22]], c.reader.Settled :=
  ⟨.feed .fresh _, answers_flatten (.feed .fresh _) [[], [10, 0x22], [0x22]]⟩

end Reader

end GhostText.Frame
