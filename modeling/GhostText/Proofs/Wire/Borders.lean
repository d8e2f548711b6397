import GhostText.Proofs.Wire.Chunks

/-!
# Where frames begin and end

Every body that some bytes complete stands in a stretch of them that a fresh reader takes for one
frame, and the stretch begins where the reader was done with all before it. Only the first frame may
have begun in bytes that were fed earlier.
-/

namespace GhostText.Frame

/-- A header that is found ends where its end does. -/
theorem splitHeader_cut {bs head rest : Bytes} (h : splitHeader bs = some (head, rest))
    (more : Bytes) : splitHeader (head ++ separator ++ more) = some (head, more) := by
  have hbs := eq_append_of_splitHeader h
  have hcut : splitHeader (head ++ separator) = some (head, []) := by
    cases hc : splitHeader (head ++ separator) with
    | none =>
      have hsep : separator <:+: head ++ separator := ⟨head, [], by simp⟩
      exact absurd hsep ((splitHeader_eq_none_iff _).1 hc)
    | some r =>
      have hlong := splitHeader_append hc rest
      rw [← hbs, h] at hlong
      simp only [Option.some.injEq, Prod.mk.injEq] at hlong
      have hrest : r.2 = [] := by simpa using hlong.2
      rw [← hrest, hlong.1]
  simpa using splitHeader_append hcut more

/-- A stretch of bytes that holds one body, behind all that came before it. -/
structure Stretch (buffer : Bytes) (expected : Option Nat) (bs : List Body) (b : Body)
    (before frame behind : Bytes) : Prop where
  bytes : buffer = before ++ frame ++ behind
  border : (drain before expected).reader = .fresh
  bodies : (drain before expected).bodies = bs
  whole : drain frame none = ⟨[b], [], .fresh⟩

/-- The first body, where its header was read before. -/
structure Begun (buffer : Bytes) (expected : Option Nat) (bs : List Body) (b : Body)
    (frame behind : Bytes) : Prop where
  first : bs = []
  bytes : buffer = frame ++ behind
  whole : drain frame expected = ⟨[b], [], .fresh⟩

/-- Where no header was read before every body has a stretch of its own. -/
theorem Stretch.of_none {buffer : Bytes} {bs : List Body} {b : Body}
    (h : (∃ before frame behind, Stretch buffer none bs b before frame behind) ∨
      ∃ frame behind, Begun buffer none bs b frame behind) :
    ∃ before frame behind, Stretch buffer none bs b before frame behind := by
  obtain h | ⟨frame, behind, h⟩ := h
  · exact h
  · exact ⟨[], frame, behind, h.bytes, by rw [drain_nil], by rw [drain_nil, h.first], h.whole⟩

/-- A stretch is one also behind bytes that the reader takes from the front. -/
theorem Stretch.behind {buffer : Bytes} {expected expected' : Option Nat} {bs : List Body}
    {b : Body} {before frame behind : Bytes}
    (h : Stretch buffer expected' bs b before frame behind) (p : Bytes) (taken : List Body)
    (htaken : ∀ more, (drain (p ++ more) expected).reader = (drain more expected').reader ∧
      (drain (p ++ more) expected).bodies = taken ++ (drain more expected').bodies) :
    Stretch (p ++ buffer) expected (taken ++ bs) b (p ++ before) frame behind where
  bytes := by rw [h.bytes]; simp only [List.append_assoc]
  border := by rw [(htaken before).1, h.border]
  bodies := by rw [(htaken before).2, h.bodies]
  whole := h.whole

/-- By induction over what the reader takes from the buffer: a header, with a length or without one,
or a body. -/
theorem exists_stretch {buffer : Bytes} {expected : Option Nat} {bs bs' : List Body} {b : Body}
    (h : (drain buffer expected).bodies = bs ++ b :: bs') :
    (∃ before frame behind, Stretch buffer expected bs b before frame behind) ∨
      ∃ frame behind, Begun buffer expected bs b frame behind := by
  fun_induction drain buffer expected generalizing bs with
  | case1 buffer hs => simp at h
  | case2 buffer head rest hs hl c =>
    -- a header without a length belongs to the stretch behind it
    rename_i ih
    have hskip (more : Bytes) := drain_skip (splitHeader_cut hs more) hl
    obtain ⟨before, frame, behind, h⟩ := Stretch.of_none (ih h)
    rw [eq_append_of_splitHeader hs]
    exact .inl ⟨_, _, _, h.behind _ [] fun more => by rw [hskip]; exact ⟨rfl, rfl⟩⟩
  | case3 buffer head rest hs n hl ih =>
    -- a header with a length is where the stretch of its body begins
    have hheader (more : Bytes) := drain_header (splitHeader_cut hs more) hl
    rw [eq_append_of_splitHeader hs]
    obtain ⟨before, frame, behind, h⟩ | ⟨frame, behind, h⟩ := ih h
    · exact .inl ⟨_, _, _, h.behind _ [] fun more => by rw [hheader]; exact ⟨rfl, rfl⟩⟩
    · refine .inl ⟨[], head ++ separator ++ frame, behind, ?_, ?_, ?_, ?_⟩
      · rw [h.bytes]
        simp only [List.nil_append, List.append_assoc]
      · rw [drain_nil]
      · rw [drain_nil, h.first]
      · rw [hheader, h.whole]
  | case4 buffer n hn => simp at h
  | case5 buffer n hn c =>
    -- a body ends the stretch that was begun, or comes before a later one
    rename_i ih
    have hlen : (buffer.take n).length = n := List.length_take_of_le (by omega)
    have hbody (more : Bytes) : drain (buffer.take n ++ more) (some n) =
        { drain more none with
          bodies := Body.ofBytes (buffer.take n) :: (drain more none).bodies } := by
      rw [drain_body (by rw [List.length_append]; omega), List.drop_left' hlen,
        List.take_left' hlen]
    cases bs with
    | nil =>
      obtain ⟨rfl, -⟩ := List.cons_eq_cons.1 h
      refine .inr ⟨buffer.take n, buffer.drop n, rfl, (List.take_append_drop n buffer).symm, ?_⟩
      have hall := hbody []
      rw [List.append_nil, drain_nil] at hall
      exact hall
    | cons x bs =>
      obtain ⟨rfl, htail⟩ := List.cons_eq_cons.1 h
      obtain ⟨before, frame, behind, h⟩ := Stretch.of_none (ih htail)
      have hbuffer := List.take_append_drop n buffer
      refine .inl ⟨_, _, _, hbuffer ▸ h.behind (buffer.take n) [Body.ofBytes (buffer.take n)] ?_⟩
      intro more
      rw [hbody]
      exact ⟨rfl, rfl⟩

namespace Reader

variable {r : Reader} {bytes frame behind : Bytes} {bs bs' : List Body} {b : Body}

/-- Nothing is whole yet in what a settled reader keeps. -/
theorem Settled.drain_prefix (hr : r.Settled) {p : Bytes} (hp : p <+: r.buffer) :
    drain p r.expected = ⟨[], [], ⟨p, r.expected⟩⟩ := by
  obtain ⟨buffer, expected⟩ := r
  cases expected with
  | none =>
    have hnone : ¬ separator <:+: p := fun h => hr (h.trans hp.isInfix)
    exact drain_waiting ((splitHeader_eq_none_iff p).2 hnone)
  | some n => exact drain_short (Nat.lt_of_le_of_lt hp.length_le hr)

/-- A frame at which a settled reader stands goes on in the bytes that come. -/
theorem Settled.exists_rest (hr : r.Settled) (hbytes : r.buffer ++ bytes = frame ++ behind)
    (hw : drain frame r.expected = ⟨[b], [], .fresh⟩) :
    ∃ rest, bytes = rest ++ behind ∧ r.feed rest = ⟨[b], [], .fresh⟩ := by
  obtain ⟨rest, hframe, hrest⟩ | ⟨rest, hbuffer, -⟩ := List.append_eq_append_iff.1 hbytes
  · exact ⟨rest, hrest, by rw [feed, ← hframe, hw]⟩
  · rw [hr.drain_prefix ⟨rest, hbuffer.symm⟩] at hw
    cases hw

/-- Every body that bytes complete is that of a frame which begins where all before it was done
with, or of the first frame, which had begun before. -/
theorem Settled.exists_frame (hr : r.Settled) (h : (r.feed bytes).bodies = bs ++ b :: bs') :
    (∃ before frame behind, bytes = before ++ frame ++ behind ∧
      (r.feed before).reader = .fresh ∧ (r.feed before).bodies = bs ∧
      fresh.feed frame = ⟨[b], [], .fresh⟩) ∨
    (bs = [] ∧ ∃ rest behind, bytes = rest ++ behind ∧ r.feed rest = ⟨[b], [], .fresh⟩) := by
  obtain ⟨before, frame, behind, hs⟩ | ⟨frame, behind, hb⟩ := exists_stretch h
  · have hbytes := hs.bytes
    rw [List.append_assoc] at hbytes
    obtain ⟨before', hbefore, hrest⟩ | ⟨kept, hkept, -⟩ := List.append_eq_append_iff.1 hbytes
    · refine .inl ⟨before', frame, behind, ?_, ?_, ?_, hs.whole⟩
      · rw [hrest, List.append_assoc]
      · rw [feed, ← hbefore, hs.border]
      · rw [feed, ← hbefore, hs.bodies]
    · -- What was done with ends inside what the reader keeps, so it is nothing.
      have hdrain := hr.drain_prefix ⟨kept, hkept.symm⟩
      have hfresh : (⟨before, r.expected⟩ : Reader) = .fresh := by rw [← hs.border, hdrain]
      obtain ⟨rfl, hexpected⟩ := Reader.mk.inj hfresh
      have hbodies : bs = [] := by rw [← hs.bodies, hdrain]
      have hwhole := hs.whole
      rw [← hexpected] at hwhole
      have hstart : r.buffer ++ bytes = frame ++ behind := hbytes
      obtain ⟨rest, hrest⟩ := hr.exists_rest hstart hwhole
      exact .inr ⟨hbodies, rest, behind, hrest⟩
  · obtain ⟨rest, hrest⟩ := hr.exists_rest hb.bytes hb.whole
    exact .inr ⟨hb.first, rest, behind, hrest⟩

end Reader

end GhostText.Frame
