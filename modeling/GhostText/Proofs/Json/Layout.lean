import GhostText.Proofs.Json.Reading
import GhostText.Proofs.Json.Spelling

/-!
# Where a text of a value is broken

A carriage return stands only between two parts of a text that is read as a value: a written text
holds none, and neither does a word or a number. So behind it comes blank space, and then one of the
few marks a part starts with, or nothing more.
-/

namespace GhostText.Json

/-- The characters a part of a text starts with if it is no digit: a value, a separator or a closing
bracket. -/
def marks : List Char := ['"', '[', ']', '{', '}', ',', ':', '-', 'n', 't', 'f', 'N', 'I']

def isMark (c : Char) : Bool := c.isDigit || marks.contains c

theorem isMark_of_isDigit {c : Char} (h : c.isDigit) : isMark c := by simp [isMark, h]

/-- What holds of the digits and of the other marks holds of all of them. -/
theorem of_isMark {P : Char → Bool} {c : Char} (h : isMark c) (hd : c.isDigit → P c)
    (hm : marks.all P) : P c := by
  rw [isMark, Bool.or_eq_true, List.contains_iff_mem] at h
  rcases h with h | h
  · exact hd h
  · exact List.all_eq_true.1 hm c h

/-- No mark that a part starts with is blank. -/
theorem not_isSpace_of_isMark {c : Char} (h : isMark c) : isSpace c = false := by
  by_contra hs
  simp only [isSpace, Bool.not_eq_false, Bool.or_eq_true, decide_eq_true_eq] at hs
  rcases hs with ((rfl | rfl) | rfl) | rfl <;> contradiction

theorem ne_return_of_isMark {c : Char} (h : isMark c) : c ≠ '\r' := by
  rintro rfl
  contradiction

/-- A mark stands first. -/
def Starts (cs : List Char) : Prop := ∃ c d, cs = c :: d ∧ isMark c

/-- A mark stands first behind spaces. -/
def Opens (cs : List Char) : Prop := ∃ g d, cs = g ++ d ∧ Gap g ∧ Starts d

/-- A mark stands first behind spaces, or spaces are all there is. -/
def Tidy (cs : List Char) : Prop := Gap cs ∨ Opens cs

/-- The property holds of what stands behind each carriage return. -/
def AfterReturns (P : List Char → Prop) : List Char → Prop
  | [] => True
  | c :: cs => (c = '\r' → P cs) ∧ AfterReturns P cs

section Parts

variable {g cs ds : List Char} {P Q : List Char → Prop}

theorem Starts.append (h : Starts cs) (ds : List Char) : Starts (cs ++ ds) := by
  obtain ⟨c, d, rfl, hc⟩ := h
  exact ⟨c, d ++ ds, rfl, hc⟩

theorem Opens.append (h : Opens cs) (ds : List Char) : Opens (cs ++ ds) := by
  obtain ⟨g, d, rfl, hg, hd⟩ := h
  exact ⟨g, d ++ ds, List.append_assoc _ _ _, hg, hd.append ds⟩

/-- What is left of a gap is a gap. -/
theorem gap_tail {c : Char} (h : Gap (c :: g)) : Gap g :=
  fun d hd => h d (List.mem_cons_of_mem c hd)

theorem afterReturns_of_not_mem (h : '\r' ∉ cs) : AfterReturns P cs := by
  induction cs with
  | nil => trivial
  | cons c cs ih =>
    refine ⟨?_, ih fun hm => h (List.mem_cons_of_mem c hm)⟩
    rintro rfl
    exact absurd List.mem_cons_self h

/-- Behind every carriage return of two texts stands what may stand there, if it does so in both. -/
theorem AfterReturns.append (hP : ∀ bs, P bs → Q (bs ++ ds)) (h : AfterReturns P cs)
    (hd : AfterReturns Q ds) : AfterReturns Q (cs ++ ds) := by
  induction cs with
  | nil => exact hd
  | cons c cs ih => exact ⟨fun hc => hP cs (h.1 hc), ih h.2⟩

/-- What stands behind a gap stands behind each carriage return in it. -/
theorem AfterReturns.gap (hP : ∀ g, Gap g → P (g ++ ds)) (hg : Gap g) (h : AfterReturns P ds) :
    AfterReturns P (g ++ ds) := by
  induction g with
  | nil => exact h
  | cons c g ih => exact ⟨fun _ => hP g (gap_tail hg), ih (gap_tail hg)⟩

end Parts

/-- What was read of a text, up to the rest that was left: a mark stands first, and again behind
every carriage return. -/
def Took (cs rest : List Char) : Prop :=
  ∃ used, cs = used ++ rest ∧ Starts used ∧ AfterReturns Opens used

section Took

variable {cs ds rest more : List Char} {c : Char}

/-- A part that starts with a mark and holds no carriage return was read. -/
theorem took_part (hc : isMark c) (hr : '\r' ∉ ds) : Took (c :: (ds ++ rest)) rest :=
  ⟨c :: ds, rfl, ⟨c, ds, rfl, hc⟩, fun h => absurd h (ne_return_of_isMark hc),
    afterReturns_of_not_mem hr⟩

theorem took_mark (hc : isMark c) : Took (c :: rest) rest := took_part hc List.not_mem_nil

/-- Spaces between two parts count for nothing. -/
theorem Took.trans (h : Took cs rest) (h' : Took (skipSpace rest) more) : Took cs more := by
  obtain ⟨u, rfl, hs, hu⟩ := h
  obtain ⟨u', he, hs', hu'⟩ := h'
  have hg : Gap (rest.takeWhile isSpace) := fun c hc => List.mem_takeWhile_imp hc
  refine ⟨u ++ (rest.takeWhile isSpace ++ u'), ?_, hs.append _, ?_⟩
  · rw [List.append_assoc, List.append_assoc, ← he, skipSpace, List.takeWhile_append_dropWhile]
  · exact hu.append (fun b hb => hb.append _) (.gap (fun g hg => ⟨g, u', rfl, hg, hs'⟩) hg hu')

end Took

/-! ## Texts -/

/-- Four hexadecimal digits are no carriage return. -/
theorem not_mem_take_hex4 {cs : List Char} {n : Nat} (h : hex4? cs = some n) :
    '\r' ∉ cs.take 4 := by
  match cs with
  | a :: b :: c :: d :: rest =>
    simp only [hex4?, Option.bind_eq_bind, Option.bind_eq_some_iff] at h
    obtain ⟨a', ha, b', hb, c', hc, d', hd, -⟩ := h
    have hne : ∀ {e : Char} {m : Nat}, hexValue? e = some m → '\r' ≠ e := by
      rintro e m he rfl
      rw [show hexValue? '\r' = none by decide] at he
      contradiction
    simp [hne ha, hne hb, hne hc, hne hd]

theorem not_mem_take_unicodeEscape {cs : List Char} {d : Char} {n : Nat}
    (h : unicodeEscape cs = .ok (d, n)) : '\r' ∉ ('u' :: cs).take n := by
  rw [unicodeEscape] at h
  split at h
  · contradiction
  cases hx : hex4? cs with
  | none => simp [hx] at h
  | some k =>
    have hk := not_mem_take_hex4 hx
    have h₅ : '\r' ∉ ('u' :: cs).take 5 := by simpa using hk
    simp only [hx] at h
    split at h
    · next rest hr =>
      split at h
      · cases hy : hex4? rest with
        | none => simp [hy] at h
        | some m =>
          -- Two escapes in a row are read as one character.
          have hm := not_mem_take_hex4 hy
          have h₁₁ : '\r' ∉ ('u' :: cs).take 11 := by
            have he : cs.take (4 + 6) = cs.take 4 ++ (cs.drop 4).take 6 := List.take_add
            simpa [he, hr, hk] using hm
          simp only [hy] at h
          split at h
          · obtain ⟨-, rfl⟩ := Prod.mk.inj (Except.ok.inj h)
            exact h₁₁
          · obtain ⟨-, rfl⟩ := Prod.mk.inj (Except.ok.inj h)
            exact h₅
      · obtain ⟨-, rfl⟩ := Prod.mk.inj (Except.ok.inj h)
        exact h₅
    · obtain ⟨-, rfl⟩ := Prod.mk.inj (Except.ok.inj h)
      exact h₅

/-- No escape holds a carriage return. -/
theorem not_mem_take_escape {opening cs : List Char} {d : Char} {n : Nat}
    (h : escape opening cs = .ok (d, n)) : '\r' ∉ cs.take n := by
  have hone : ∀ {c : Char} {t : List Char}, '\r' ≠ c → '\r' ∉ (c :: t).take 1 := by
    intro c t hc
    simpa using hc
  rw [escape.eq_def] at h
  split at h
  case h_10 => exact not_mem_take_unicodeEscape h
  case h_1 => contradiction
  case h_11 => contradiction
  all_goals
    obtain ⟨-, rfl⟩ := Prod.mk.inj (Except.ok.inj h)
    exact hone (by decide)

/-- A text is read up to its closing quote, with no carriage return before that. -/
theorem textFrom_took {opening cs : List Char} {skip : Nat} {r : List Char × List Char}
    (h : textFrom opening skip cs = .ok r) (hs : '\r' ∉ cs.take skip) :
    ∃ used, cs = used ++ r.2 ∧ '\r' ∉ used := by
  induction cs generalizing skip r with
  | nil =>
    cases skip <;> contradiction
  | cons c cs ih =>
    cases skip with
    | succ skip =>
      rw [List.take_succ_cons, List.mem_cons, not_or] at hs
      obtain ⟨used, rfl, hu⟩ := ih h hs.2
      exact ⟨c :: used, rfl, by simp [hs.1, hu]⟩
    | zero =>
      rw [textFrom] at h
      split at h
      · next hq =>
        obtain rfl := Except.ok.inj h
        exact ⟨[c], rfl, by simp [hq]⟩
      split at h
      · next hb =>
        cases he : escape opening cs with
        | error stop => simp [he] at h
        | ok e =>
          simp only [he] at h
          obtain ⟨r', hr, rfl⟩ := ok_of_map h
          obtain ⟨used, hu, hn⟩ := ih hr (not_mem_take_escape he)
          exact ⟨c :: used, congrArg (c :: ·) hu, by simp [hb, hn]⟩
      split at h
      · contradiction
      · next hc =>
        obtain ⟨r', hr, rfl⟩ := ok_of_map h
        obtain ⟨used, hu, hn⟩ := ih hr (by simp)
        have hne : '\r' ≠ c := by
          rintro rfl
          exact hc (by decide)
        exact ⟨c :: used, congrArg (c :: ·) hu, by simp [hne, hn]⟩

/-- A text that is read holds no carriage return. -/
theorem readText_took {opening cs : List Char} {r : String × List Char}
    (h : readText opening cs = .ok r) : Took ('"' :: cs) r.2 := by
  obtain ⟨r', hr, rfl⟩ := ok_of_map h
  obtain ⟨used, rfl, hu⟩ := textFrom_took hr (by simp)
  exact took_part rfl hu

/-! ## Words and numbers -/

theorem takeWhile_isDigit_split (cs : List Char) :
    cs = cs.takeWhile Char.isDigit ++ cs.dropWhile Char.isDigit ∧
      '\r' ∉ cs.takeWhile Char.isDigit :=
  ⟨List.takeWhile_append_dropWhile.symm, fun hm => absurd (List.mem_takeWhile_imp hm) (by decide)⟩

theorem fractionPart_took (cs : List Char) :
    ∃ used, cs = used ++ (fractionPart cs).2 ∧ '\r' ∉ used := by
  rw [fractionPart.eq_def]
  split
  · next d rest =>
    split
    · obtain ⟨he, hn⟩ := takeWhile_isDigit_split (d :: rest)
      exact ⟨'.' :: (d :: rest).takeWhile Char.isDigit, congrArg ('.' :: ·) he,
        by simpa using hn⟩
    · exact ⟨[], rfl, List.not_mem_nil⟩
  · exact ⟨[], rfl, List.not_mem_nil⟩

/-- The digits behind a sign are taken if there are some, and nothing otherwise. -/
theorem exponentDigits_took (sign : List Char) {rest : List Char} (h : '\r' ∉ sign)
    (exponent : Option Int) :
    ∃ used, sign ++ rest = used ++ (if (rest.takeWhile Char.isDigit).isEmpty
      then (none, sign ++ rest) else (exponent, rest.dropWhile Char.isDigit)).2 ∧ '\r' ∉ used := by
  split
  · exact ⟨[], rfl, List.not_mem_nil⟩
  · obtain ⟨he, hn⟩ := takeWhile_isDigit_split rest
    refine ⟨sign ++ rest.takeWhile Char.isDigit, ?_, by simp [h, hn]⟩
    rw [List.append_assoc, ← he]

theorem exponentPart_took (cs : List Char) :
    ∃ used, cs = used ++ (exponentPart cs).2 ∧ '\r' ∉ used := by
  cases cs with
  | nil => exact ⟨[], rfl, List.not_mem_nil⟩
  | cons e rest =>
    by_cases he : (e = 'e' || e = 'E') = true
    · have hr : '\r' ≠ e := by
        rintro rfl
        contradiction
      simp only [exponentPart, he, if_true]
      split
      · next r => exact exponentDigits_took [e, '-'] (by simp [hr]) _
      · next r => exact exponentDigits_took [e, '+'] (by simp [hr]) _
      · exact exponentDigits_took [e] (by simp [hr]) _
    · refine ⟨[], ?_, List.not_mem_nil⟩
      simp only [exponentPart, he, List.nil_append]
      rfl

/-- Behind its sign a number starts with a digit. -/
theorem numberParts?_took {cs rest : List Char} {p : NumberParts}
    (h : numberParts? cs = some (p, rest)) : Took cs rest := by
  obtain ⟨⟨w, body⟩, hw, hp⟩ := Option.map_eq_some_iff.1 h
  obtain ⟨-, rfl⟩ := Prod.mk.inj hp
  obtain ⟨f, hf, hfn⟩ := fractionPart_took body
  obtain ⟨e, he, hen⟩ := exponentPart_took (fractionPart body).2
  have hwhole : ∃ sign c d, cs = sign ++ c :: (d ++ body) ∧ (sign = [] ∨ sign = ['-']) ∧
      c.isDigit ∧ '\r' ∉ d := by
    split at hw
    · next r hr =>
      obtain ⟨-, rfl⟩ := Prod.mk.inj (Option.some.inj hw)
      split at hr
      · exact ⟨['-'], '0', [], congrArg ('-' :: ·) hr, .inr rfl, rfl, List.not_mem_nil⟩
      · exact ⟨[], '0', [], hr, .inl rfl, rfl, List.not_mem_nil⟩
    · next c r _ hr =>
      split at hw
      · next hc =>
        obtain ⟨-, hb⟩ := Prod.mk.inj (Option.some.inj hw)
        obtain ⟨hd, hm⟩ := takeWhile_isDigit_split r
        rw [List.dropWhile_cons_of_pos hc] at hb
        rw [hb] at hd
        rw [hd] at hr
        split at hr
        · exact ⟨['-'], c, _, congrArg ('-' :: ·) hr, .inr rfl, hc, hm⟩
        · exact ⟨[], c, _, hr, .inl rfl, hc, hm⟩
      · contradiction
    · contradiction
  obtain ⟨sign, c, d, hcs, hs, hc, hm⟩ := hwhole
  have htail : d ++ body = (d ++ (f ++ e)) ++ (exponentPart (fractionPart body).2).2 := by
    rw [List.append_assoc, List.append_assoc, ← he, ← hf]
  rw [hcs]
  rcases hs with rfl | rfl
  · rw [List.nil_append, htail]
    exact took_part (isMark_of_isDigit hc) (by simp [hm, hfn, hen])
  · have hne : '\r' ≠ c := (ne_return_of_isMark (isMark_of_isDigit hc)).symm
    rw [List.singleton_append, htail, ← List.cons_append]
    exact took_part rfl (by simp [hne, hm, hfn, hen])

/-- A scalar that is read holds no carriage return. -/
theorem readScalar_took {cs rest : List Char} {v : Json}
    (h : readScalar cs = .ok (v, rest)) : Took cs rest := by
  rw [readScalar] at h
  split at h
  · next w hw =>
    obtain ⟨-, rfl⟩ := Prod.mk.inj (Except.ok.inj h)
    have hp := List.find?_some hw
    have hm := List.mem_of_find?_eq_some hw
    obtain ⟨more, rfl⟩ := List.isPrefixOf_iff_prefix.1 hp
    rw [List.drop_left]
    have hall : ∀ w ∈ wordValues, ∃ c d, w.1 = c :: d ∧ isMark c ∧ '\r' ∉ d := by
      simp [wordValues, isMark, marks]
    obtain ⟨c, d, he, hc, hd⟩ := hall w hm
    rw [he]
    exact took_part hc hd
  · split at h
    · contradiction
    · next p r hp =>
      split at h
      · obtain ⟨-, rfl⟩ := Prod.mk.inj (Except.ok.inj h)
        exact numberParts?_took hp
      · contradiction

/-! ## Values -/

mutual

/-- What a value is read from is one part after the other. -/
theorem ReadsValue.took {cs rest : List Char} {v : Json} (h : ReadsValue cs v rest) :
    Took cs rest :=
  match h with
  | .text read => readText_took read
  | .noItems close => (took_mark rfl).trans (close ▸ took_mark rfl)
  | .items read => (took_mark rfl).trans read.took
  | .noMembers close => (took_mark rfl).trans (close ▸ took_mark rfl)
  | .members read => (took_mark rfl).trans read.took
  | .scalar read => readScalar_took read

/-- Between the items that are read a carriage return stands only in the gaps. -/
theorem ReadsItems.took {cs rest : List Char} {vs : List Json} (h : ReadsItems cs vs rest) :
    Took cs rest :=
  match h with
  | .last item close => item.took.trans (close ▸ took_mark rfl)
  | .more item comma read => item.took.trans (comma ▸ (took_mark rfl).trans read.took)

theorem ReadsMembers.took {cs rest : List Char} {fs : List (String × Json)}
    (h : ReadsMembers cs fs rest) : Took cs rest :=
  match h with
  | .last name colon value close =>
    have hvalue := (readText_took name).trans (colon ▸ (took_mark rfl).trans value.took)
    hvalue.trans (close ▸ took_mark rfl)
  | .more name colon value comma read =>
    have hvalue := (readText_took name).trans (colon ▸ (took_mark rfl).trans value.took)
    hvalue.trans (comma ▸ (took_mark rfl).trans read.took)

end

/-- A text that is read starts with a mark behind spaces, and so it goes on behind every carriage
return in it. -/
theorem laid_of_read {t : List Char} {v : Json} (h : read t = .ok v) :
    Opens t ∧ AfterReturns Tidy t := by
  obtain ⟨rest, hread, hs⟩ := readsValue_of_read h
  obtain ⟨used, he, hu, hr⟩ := hread.took
  have hg : Gap (t.takeWhile isSpace) := fun c hc => List.mem_takeWhile_imp hc
  have hrest : Gap rest := List.dropWhile_eq_nil_iff.1 hs
  have ht : t = t.takeWhile isSpace ++ (used ++ rest) := by
    rw [← he, skipSpace, List.takeWhile_append_dropWhile]
  have hend : AfterReturns Tidy rest := by
    have hnil : AfterReturns Tidy (rest ++ []) :=
      .gap (fun g hg => .inl (by simpa using hg)) hrest trivial
    rwa [List.append_nil] at hnil
  rw [ht]
  refine ⟨⟨_, _, rfl, hg, hu.append rest⟩, .gap (fun g hg => ?_) hg ?_⟩
  · exact .inr ⟨g, _, rfl, hg, hu.append rest⟩
  · exact hr.append (fun b hb => .inr (hb.append rest)) hend

end GhostText.Json
