import GhostText.Proofs.Json.Layout
import GhostText.Proofs.Wire.Headers

/-!
# The lines of a value

A body that is taken for a header is read line by line. A line of a value starts with a mark behind
blanks, or is blank, so none of them gives a length. Dropping the characters outside ASCII joins no
two lines, for they stand in texts only, and no line is broken there.
-/

namespace GhostText.Frame

open Json (Gap Opens Starts Tidy AfterReturns isMark isSpace)

/-! ## Texts laid out like a value -/

section Tidy

variable {cs ds : Text} {c : Char}

theorem tidy_of_append (h : Tidy (cs ++ ds)) : Tidy cs := by
  rcases h with hg | ⟨g, d, he, hg, c, d', rfl, hc⟩
  · exact .inl fun c hc => hg c (List.mem_append_left ds hc)
  · rcases List.append_eq_append_iff.1 he with ⟨a, rfl, -⟩ | ⟨a, rfl, ha⟩
    · exact .inl fun c hc => hg c (List.mem_append_left a hc)
    · cases a with
      | nil => exact .inl (by simpa using hg)
      | cons e a =>
        obtain ⟨rfl, -⟩ := List.cons.inj ha
        exact .inr ⟨g, c :: a, rfl, hg, c, a, rfl, hc⟩

theorem tidy_of_cons (hs : isSpace c) (h : Tidy (c :: cs)) : Tidy cs := by
  rcases h with hg | ⟨g, d, he, hg, e, d', rfl, hc⟩
  · exact .inl (Json.gap_tail hg)
  · cases g with
    | nil =>
      obtain ⟨rfl, -⟩ := List.cons.inj he
      rw [Json.not_isSpace_of_isMark hc] at hs
      contradiction
    | cons b g =>
      obtain ⟨rfl, rfl⟩ := List.cons.inj he
      exact .inr ⟨g, e :: d', rfl, Json.gap_tail hg, e, d', rfl, hc⟩

theorem afterReturns_of_append {P : Text → Prop} (h : AfterReturns P (cs ++ ds)) :
    AfterReturns P ds := by
  induction cs with
  | nil => exact h
  | cons c cs ih => exact ih h.2

theorem afterReturns_left (h : AfterReturns Tidy (cs ++ ds)) : AfterReturns Tidy cs := by
  induction cs with
  | nil => trivial
  | cons c cs ih => exact ⟨fun hc => tidy_of_append (h.1 hc), ih h.2⟩

end Tidy

/-! ## The characters within ASCII -/

/-- The characters of a text that are read of a header. -/
def ascii (cs : Text) : Text := cs.filter fun c => c.toNat < 0x80

/-- The lines of a header are those of its characters within ASCII. -/
theorem linesOf_encode (cs : Text) :
    linesOf (Text.Utf8.encode cs) = Text.pieces LineBreak.crlf.text (ascii cs) := by
  rw [linesOf, Text.Utf8.ascii_encode_eq, ascii]

theorem ascii_of_isSpace {c : Char} (h : isSpace c) : c.toNat < 0x80 := by
  simp only [isSpace, Bool.or_eq_true, decide_eq_true_eq] at h
  rcases h with ((rfl | rfl) | rfl) | rfl <;> decide

theorem ascii_of_isMark {c : Char} (h : isMark c) : c.toNat < 0x80 := by
  have hd : c.isDigit → decide (c.toNat < 0x80) = true := by
    intro hd
    have := (Text.toNat_of_isDigit hd).2
    simp only [decide_eq_true_eq]
    omega
  simpa using Json.of_isMark (P := fun c => c.toNat < 0x80) h hd (by decide)

theorem ascii_gap {g : Text} (h : Gap g) : ascii g = g :=
  List.filter_eq_self.2 fun c hc => by simpa using ascii_of_isSpace (h c hc)

theorem opens_ascii {cs : Text} (h : Opens cs) : Opens (ascii cs) := by
  obtain ⟨g, d, rfl, hg, c, d', rfl, hc⟩ := h
  have hm := ascii_of_isMark hc
  have he : ascii (g ++ c :: d') = g ++ c :: ascii d' := by
    rw [ascii, List.filter_append, List.filter_cons_of_pos (by simpa using hm)]
    exact congrArg (· ++ c :: ascii d') (ascii_gap hg)
  exact ⟨g, _, he, hg, c, _, rfl, hc⟩

/-- Without the characters outside ASCII a tidy text is tidy. -/
theorem tidy_ascii {cs : Text} (h : Tidy cs) : Tidy (ascii cs) := by
  rcases h with hg | ho
  · exact .inl (by rwa [ascii_gap hg])
  · exact .inr (opens_ascii ho)

/-- A text laid out like a value has no line break that comes of dropping characters. -/
theorem pieces_ascii {cs : Text} (h : AfterReturns Tidy cs) :
    Text.pieces LineBreak.crlf.text (ascii cs) =
      (Text.pieces LineBreak.crlf.text cs).map ascii := by
  induction cs using Text.breakInduction .crlf with
  | nil => rfl
  | break_ t ih =>
    have he : ascii (LineBreak.crlf.text ++ t) = LineBreak.crlf.text ++ ascii t :=
      List.filter_append _ _
    rw [he, Text.pieces_break, Text.pieces_break, ih (afterReturns_of_append h), List.map_cons]
    rfl
  | char c t hp ih =>
    obtain ⟨l, ls, ht⟩ := Text.pieces_eq_cons LineBreak.crlf.text t
    have hi := ih h.2
    rw [ht, List.map_cons] at hi
    rw [Text.pieces_char hp ht, List.map_cons]
    by_cases hc : c.toNat < 0x80
    · have he : ∀ u, ascii (c :: u) = c :: ascii u := fun u =>
        List.filter_cons_of_pos (by simpa using hc)
      rw [he, he]
      refine Text.pieces_char (fun hb => ?_) hi
      -- Behind a carriage return stands a character within ASCII, so it is the next one again.
      simp only [LineBreak.text_crlf, List.cons_prefix_cons] at hp hb
      obtain ⟨rfl, hb⟩ := hb
      refine hp ⟨rfl, ?_⟩
      cases t with
      | nil => exact absurd hb (by simp [ascii])
      | cons d t =>
        have hd : ascii (d :: t) = d :: ascii t := by
          refine List.filter_cons_of_pos ?_
          rcases h.1 rfl with hg | ⟨g, e, he, hg, m, e', rfl, hm⟩
          · simpa using ascii_of_isSpace (hg d List.mem_cons_self)
          · cases g with
            | nil => simpa [(List.cons.inj he).1] using ascii_of_isMark hm
            | cons b g =>
              rw [(List.cons.inj he).1]
              simpa using ascii_of_isSpace (hg b List.mem_cons_self)
        rw [hd] at hb
        exact List.cons_prefix_cons.2 ⟨(List.cons_prefix_cons.1 hb).1, List.nil_prefix⟩
    · have he : ∀ u, ascii (c :: u) = ascii u := fun u =>
        List.filter_cons_of_neg (by simpa using hc)
      rw [he, he, hi]

/-- The first line of a text is the start of it. -/
theorem prefix_of_pieces {cs l : Text} {ls : List Text}
    (h : Text.pieces LineBreak.crlf.text cs = l :: ls) : l <+: cs := by
  induction cs using Text.breakInduction .crlf generalizing l ls with
  | nil =>
    rw [Text.pieces_nil] at h
    obtain ⟨rfl, -⟩ := List.cons.inj h
    exact List.nil_prefix
  | break_ t ih =>
    rw [Text.pieces_break] at h
    obtain ⟨rfl, -⟩ := List.cons.inj h
    exact List.nil_prefix
  | char c t hp ih =>
    obtain ⟨l', ls', ht⟩ := Text.pieces_eq_cons LineBreak.crlf.text t
    rw [Text.pieces_char hp ht] at h
    obtain ⟨rfl, -⟩ := List.cons.inj h
    exact List.cons_prefix_cons.2 ⟨rfl, ih ht⟩

/-- Behind every line break of a value comes a tidy line. -/
theorem tidy_tail {cs l : Text} {ls : List Text} (h : AfterReturns Tidy cs)
    (hl : Text.pieces LineBreak.crlf.text cs = l :: ls) : ∀ line ∈ ls, Tidy line := by
  induction cs using Text.breakInduction .crlf generalizing l ls with
  | nil =>
    rw [Text.pieces_nil] at hl
    obtain ⟨-, rfl⟩ := List.cons.inj hl
    simp
  | break_ t ih =>
    obtain ⟨l', ls', ht⟩ := Text.pieces_eq_cons LineBreak.crlf.text t
    rw [Text.pieces_break, ht] at hl
    obtain ⟨-, rfl⟩ := List.cons.inj hl
    intro line hm
    rcases List.mem_cons.1 hm with rfl | hm
    · obtain ⟨more, rfl⟩ := prefix_of_pieces ht
      exact tidy_of_append (tidy_of_cons rfl (h.1 rfl))
    · exact ih (afterReturns_of_append h) ht line hm
  | char c t hp ih =>
    obtain ⟨l', ls', ht⟩ := Text.pieces_eq_cons LineBreak.crlf.text t
    rw [Text.pieces_char hp ht] at hl
    obtain ⟨-, rfl⟩ := List.cons.inj hl
    exact ih h.2 ht

/-- Every line of a text laid out like a value starts with a mark, or is blank. -/
theorem tidy_of_mem_pieces {cs line : Text} (hs : Tidy cs) (h : AfterReturns Tidy cs)
    (hm : line ∈ Text.pieces LineBreak.crlf.text cs) : Tidy line := by
  obtain ⟨l, ls, hl⟩ := Text.pieces_eq_cons LineBreak.crlf.text cs
  rw [hl] at hm
  rcases List.mem_cons.1 hm with rfl | hm
  · obtain ⟨more, rfl⟩ := prefix_of_pieces hl
    exact tidy_of_append hs
  · exact tidy_tail h hl line hm

/-! ## No line of a value gives a length -/

theorem isBlank_of_isSpace {c : Char} (h : isSpace c) : Text.isBlank c := by
  simp only [isSpace, Bool.or_eq_true, decide_eq_true_eq] at h
  rcases h with ((rfl | rfl) | rfl) | rfl <;> decide

theorem not_isBlank_of_isMark {c : Char} (h : isMark c) : Text.isBlank c = false := by
  have hd : c.isDigit → (!Text.isBlank c) = true := by
    intro hd
    rw [Text.isBlank_of_isDigit hd]
    rfl
  simpa using Json.of_isMark (P := fun c => !Text.isBlank c) h hd (by decide)

/-- The name of the length starts with no mark. -/
theorem toLower_ne_of_isMark {c : Char} (h : isMark c) : c.toLower ≠ 'c' := by
  have hd : c.isDigit → (c.toLower != 'c') = true := by
    intro hd
    have hn : ∀ n < 58, 48 ≤ n → (Char.ofNat n).toLower ≠ 'c' := by decide
    obtain ⟨hl, hu⟩ := Text.toNat_of_isDigit hd
    have hc := hn c.toNat (by omega) hl
    rw [Char.ofNat_toNat] at hc
    simpa using hc
  simpa using Json.of_isMark (P := fun c => c.toLower != 'c') h hd (by decide)

/-- What is not blank at the start of a text is left there. -/
theorem trim_gap {g d : Text} {c : Char} (hg : Gap g) (hc : Text.isBlank c = false) :
    ∃ e, Text.trimClass Text.isBlank (g ++ c :: d) = c :: e := by
  have hl : Text.trimLeft Text.isBlank (g ++ c :: d) = c :: d := by
    rw [Text.trimLeft, List.dropWhile_append_of_pos fun b hb => isBlank_of_isSpace (hg b hb),
      List.dropWhile_cons_of_neg (by simp [hc])]
  rw [Text.trimClass, hl, Text.trimRight, List.reverse_cons, List.dropWhile_append]
  split
  · rw [List.dropWhile_cons_of_neg (by simp [hc])]
    exact ⟨[], rfl⟩
  · rw [List.reverse_append]
    exact ⟨_, rfl⟩

theorem trim_blank {g : Text} (hg : Gap g) : Text.trimClass Text.isBlank g = [] := by
  have hl : g.dropWhile Text.isBlank = [] :=
    List.dropWhile_eq_nil_iff.2 fun c hc => isBlank_of_isSpace (hg c hc)
  rw [Text.trimClass, Text.trimLeft, hl]
  rfl

/-- A tidy line names no length. -/
theorem not_namesLength {line : Text} (h : Tidy line) : ¬ NamesLength line := by
  rintro ⟨hm, hf⟩
  rw [Text.fold, Text.trim, String.toList_ofList, String.toList_ofList] at hf
  have hname := congrArg String.toList hf
  rw [String.toList_ofList] at hname
  rcases h with hg | ⟨g, d, rfl, hg, c, d', rfl, hc⟩
  · exact absurd (hg ':' hm) (by decide)
  have hp : ∀ b ∈ g, (b != ':') = true := by
    intro b hb
    rw [bne_iff_ne]
    rintro rfl
    exact absurd (hg ':' hb) (by decide)
  rw [List.takeWhile_append_of_pos hp] at hname
  by_cases hcolon : c = ':'
  · subst hcolon
    rw [List.takeWhile_cons_of_neg (by simp), List.append_nil, trim_blank hg] at hname
    exact absurd hname (by decide)
  · obtain ⟨e, he⟩ := trim_gap (d := d'.takeWhile (· != ':')) hg (not_isBlank_of_isMark hc)
    rw [List.takeWhile_cons_of_pos (by simpa using hcolon), he] at hname
    exact toLower_ne_of_isMark hc (List.cons.inj hname).1

/-- A text laid out like a value is no header with a length. -/
theorem contentLength?_tidy {cs : Text} (hs : Tidy cs) (h : AfterReturns Tidy cs) :
    contentLength? (Text.Utf8.encode cs) = none := by
  rw [contentLength?_eq, linesOf_encode, pieces_ascii h, ← List.append_nil (List.map _ _),
    lengthIn_others]
  · rfl
  · rw [List.forall_mem_map]
    exact fun line hm => not_namesLength (tidy_ascii (tidy_of_mem_pieces hs h hm))

end GhostText.Frame
