import GhostText.Proofs.Document.Callers
import GhostText.Proofs.Document.Places
import Mathlib.Data.Nat.Basic
import Mathlib.Order.Bounds.Defs
import Mathlib.Order.Defs.LinearOrder

/-!
# Offsets are adjoint to positions

Positions are ordered as they are read. An offset on a boundary lies at or before the offset of a
position exactly if its own position does not lie behind that position; and the offset of a position
is itself on a boundary. So the offset of a position is the greatest boundary that the position has
not passed, and a position that is no place of the text is moved back to the last place before it.
Offsets have their positions in the same order, those inside a line break among them.
-/

namespace GhostText

variable {b : LineBreak}

namespace Position

theorem le_iff {p q : Position} :
    p ≤ q ↔ p.line < q.line ∨ p.line = q.line ∧ p.character ≤ q.character := by
  obtain ⟨line, n⟩ := p
  obtain ⟨line', n'⟩ := q
  have hle : (⟨line, n⟩ : Position) ≤ ⟨line', n'⟩ ↔
      (line < line' ∨ line = line' ∧ n < n') ∨ (⟨line, n⟩ : Position) = ⟨line', n'⟩ := Iff.rfl
  rw [hle, Position.mk.injEq]
  simp only
  omega

theorem lt_iff {p q : Position} :
    p < q ↔ p.line < q.line ∨ p.line = q.line ∧ p.character < q.character := Iff.rfl

/-- Positions in the order of reading. -/
instance : LinearOrder Position where
  le_refl _ := Or.inr rfl
  le_trans p q r := by
    simp only [le_iff]
    omega
  lt_iff_le_not_ge p q := by
    rw [lt_iff, le_iff, le_iff]
    omega
  le_antisymm p q h h' := by
    rw [le_iff] at h h'
    obtain ⟨line, n⟩ := p
    obtain ⟨line', n'⟩ := q
    simp only [Position.mk.injEq] at *
    omega
  le_total p q := by
    simp only [le_iff]
    omega
  toDecidableLE p q := inferInstance

theorem zero_le (p : Position) : ⟨0, 0⟩ ≤ p := by
  rw [le_iff]
  simp only
  omega

end Position

namespace Text

/-! ## Boundaries -/

theorem OnBoundary.zero (t : Text) : OnBoundary b t 0 := fun _ => rfl

/-- Behind a break the boundaries are those of what follows it. -/
theorem OnBoundary.behind_break {t : Text} {i : Nat} (h : OnBoundary b t i) :
    OnBoundary b (b.text ++ t) (b.text.length + i) := by
  intro hb
  subst hb
  have hs := h rfl
  cases i with
  | zero => simp [Diff.splitsBreak]
  | succ i => simpa [Diff.splitsBreak, Nat.add_comm 2] using hs

/-- Behind a character that starts no break the boundaries are those of what follows it. -/
theorem OnBoundary.behind_char {c : Char} {t : Text} {i : Nat} (hc : ¬ b.text <+: c :: t)
    (h : OnBoundary b t i) : OnBoundary b (c :: t) (i + 1) := by
  intro hb
  subst hb
  have hs := h rfl
  cases i with
  | zero =>
    cases t with
    | nil => simp [Diff.splitsBreak]
    | cons d t =>
      have hd : ¬ (c = '\r' ∧ d = '\n') := by
        rintro ⟨rfl, rfl⟩
        exact hc ⟨t, rfl⟩
      simpa [Diff.splitsBreak] using hd
  | succ i => simpa [Diff.splitsBreak] using hs

/-- No position stands for an offset inside a line break. -/
theorem onBoundary_offsetAt (t : Text) (p : Position) : OnBoundary b t (offsetAt b.text t p) := by
  obtain ⟨line, n⟩ := p
  induction t using breakInduction b generalizing line n with
  | nil =>
    rw [offsetAt_nil]
    exact OnBoundary.zero []
  | break_ t ih =>
    cases line with
    | zero =>
      rw [offsetAt_break_zero]
      exact OnBoundary.zero _
    | succ line =>
      rw [offsetAt_break_succ]
      exact (ih line n).behind_break
  | char c t hc ih =>
    cases line with
    | zero =>
      rw [offsetAt_char_zero hc]
      split
      · exact OnBoundary.zero _
      · exact (ih 0 _).behind_char hc
    | succ line =>
      rw [offsetAt_char_succ hc]
      exact (ih (line + 1) n).behind_char hc

/-! ## The adjunction -/

/-- A boundary lies at or before the offset of a position if and only if its own position does not
lie behind that position. -/
theorem le_offsetAt_iff {t : Text} {i : Nat} (hi : i ≤ t.length) (h : OnBoundary b t i)
    (p : Position) : i ≤ offsetAt b.text t p ↔ positionAt b.text t i ≤ p := by
  refine boundaryInduction
    (motive := fun t i => ∀ p : Position, i ≤ offsetAt b.text t p ↔ positionAt b.text t i ≤ p)
    (fun t p => ?start) (fun t j ih p => ?break_) (fun c t j hc ih p => ?char) hi h p
  case start => simp [Position.zero_le]
  case break_ =>
    obtain ⟨line, n⟩ := p
    have hpos := b.length_text_pos
    rw [positionAt_behind_break, Position.le_iff]
    cases line with
    | zero =>
      rw [offsetAt_break_zero]
      simp only
      omega
    | succ line =>
      have hrest := ih ⟨line, n⟩
      rw [Position.le_iff] at hrest
      rw [offsetAt_break_succ]
      simp only at hrest ⊢
      omega
  case char =>
    obtain ⟨line, n⟩ := p
    rw [positionAt_behind_char hc]
    generalize positionAt b.text t j = q at ih
    cases line with
    | zero =>
      have hrest := ih ⟨0, n - charUnits c⟩
      rw [Position.le_iff] at hrest
      rw [offsetAt_char_zero hc, Position.le_iff]
      simp only at hrest
      by_cases hn : n < charUnits c
      · rw [if_pos hn]
        split <;> simp only [true_and] <;> omega
      · rw [if_neg hn]
        split <;> simp only [true_and] <;> omega
    | succ line =>
      have hrest := ih ⟨line + 1, n⟩
      rw [Position.le_iff] at hrest
      rw [offsetAt_char_succ hc, Position.le_iff]
      simp only at hrest
      split <;> simp only <;> omega

/-- The offset of a position is the last boundary that the position has not passed. -/
theorem isGreatest_offsetAt (t : Text) (p : Position) :
    IsGreatest {i | i ≤ t.length ∧ OnBoundary b t i ∧ positionAt b.text t i ≤ p}
      (offsetAt b.text t p) := by
  have hle := offsetAt_le_length (b := b) t p
  have hb := onBoundary_offsetAt (b := b) t p
  refine ⟨⟨hle, hb, (le_offsetAt_iff hle hb p).1 (Nat.le_refl _)⟩, ?_⟩
  rintro i ⟨hi, hib, hip⟩
  exact (le_offsetAt_iff hi hib p).2 hip

/-- A later position has no earlier offset. -/
theorem offsetAt_mono (t : Text) {p q : Position} (hpq : p ≤ q) :
    offsetAt b.text t p ≤ offsetAt b.text t q := by
  obtain ⟨hle, hb, hp⟩ := (isGreatest_offsetAt (b := b) t p).1
  exact (le_offsetAt_iff hle hb q).2 (le_trans hp hpq)

/-! ## Positions in order -/

/-- Inside a line break the column still counts. -/
theorem positionAt_within_break {k : Nat} (hk : k < b.text.length) (t : Text) :
    positionAt b.text (b.text ++ t) k = ⟨0, k⟩ := by
  cases b with
  | lf =>
    obtain rfl : k = 0 := by simpa using hk
    exact positionAt_zero _
  | crlf =>
    match k with
    | 0 => exact positionAt_zero _
    | 1 => rfl

/-- A later offset has a later position, also inside a line break. -/
theorem positionAt_lt {t : Text} {i j : Nat} (hij : i < j) (hj : j ≤ t.length) :
    positionAt b.text t i < positionAt b.text t j := by
  induction t using breakInduction b generalizing i j with
  | nil =>
    simp only [List.length_nil] at hj
    omega
  | break_ t ih =>
    rw [List.length_append] at hj
    by_cases hi : i < b.text.length
    · rw [positionAt_within_break hi]
      by_cases hj' : j < b.text.length
      · rw [positionAt_within_break hj']
        exact Or.inr ⟨rfl, hij⟩
      · obtain ⟨j, rfl⟩ := Nat.exists_eq_add_of_le (Nat.not_lt.1 hj')
        rw [positionAt_behind_break]
        exact Or.inl (Nat.succ_pos _)
    · obtain ⟨i, rfl⟩ := Nat.exists_eq_add_of_le (Nat.not_lt.1 hi)
      obtain ⟨j, rfl⟩ := Nat.exists_eq_add_of_le
        (Nat.le_trans (Nat.le_add_right _ i) (Nat.le_of_lt hij))
      have hrest := ih (i := i) (j := j) (by omega) (by omega)
      rw [Position.lt_iff] at hrest
      rw [positionAt_behind_break, positionAt_behind_break, Position.lt_iff]
      simp only
      omega
  | char c t hc ih =>
    obtain ⟨j, rfl⟩ := Nat.exists_eq_add_one_of_ne_zero (Nat.ne_zero_of_lt hij)
    have hpos := charUnits_pos c
    rw [positionAt_behind_char hc]
    cases i with
    | zero =>
      rw [positionAt_zero, Position.lt_iff]
      simp only [apply_ite Position.line, apply_ite Position.character]
      split <;> omega
    | succ i =>
      have hrest := ih (i := i) (j := j) (by omega) (by simpa using hj)
      rw [Position.lt_iff] at hrest
      rw [positionAt_behind_char hc, Position.lt_iff]
      simp only [apply_ite Position.line, apply_ite Position.character]
      split <;> split <;> omega

/-- An offset is known from its position, also inside a line break. -/
theorem positionAt_inj {t : Text} {i j : Nat} (hi : i ≤ t.length) (hj : j ≤ t.length)
    (h : positionAt b.text t i = positionAt b.text t j) : i = j := by
  rcases Nat.lt_trichotomy i j with hlt | rfl | hlt
  · exact absurd h (ne_of_lt (positionAt_lt hlt hj))
  · rfl
  · exact absurd h.symm (ne_of_lt (positionAt_lt hlt hi))

/-- A later offset has no earlier position. -/
theorem positionAt_mono {t : Text} {i j : Nat} (hij : i ≤ j) (hj : j ≤ t.length) :
    positionAt b.text t i ≤ positionAt b.text t j := by
  rcases Nat.lt_or_eq_of_le hij with hlt | rfl
  · exact le_of_lt (positionAt_lt hlt hj)
  · exact le_refl _

/-! ## Positions that are no place -/

/-- A position beyond the last line is read as the end of the text. -/
theorem offsetAt_beyond {t : Text} {p : Position} (h : (pieces b.text t).length ≤ p.line) :
    offsetAt b.text t p = t.length := by
  rw [offsetAt_eq, List.getElem?_eq_none h]

/-- What a position on a line is moved back to: the columns of that line that fit into its own. -/
theorem positionAt_offsetAt {t l : Text} {p : Position}
    (h : (pieces b.text t)[p.line]? = some l) :
    positionAt b.text t (offsetAt b.text t p) =
      ⟨p.line, units (l.take (indexOfUnits l p.character))⟩ := by
  obtain ⟨line, n⟩ := p
  simp only at h ⊢
  induction t using breakInduction b generalizing line n l with
  | nil =>
    cases line with
    | zero =>
      obtain rfl : [] = l := by simpa using h
      simp
    | succ line => simp at h
  | break_ t ih =>
    rw [pieces_break] at h
    cases line with
    | zero =>
      obtain rfl : [] = l := by simpa using h
      simp [offsetAt_break_zero]
    | succ line =>
      rw [offsetAt_break_succ, positionAt_behind_break, ih line n h]
  | char c t hc ih =>
    obtain ⟨l', ls, ht⟩ := pieces_eq_cons b.text t
    rw [pieces_char hc ht] at h
    cases line with
    | zero =>
      obtain rfl : c :: l' = l := by simpa using h
      rw [offsetAt_char_zero hc, indexOfUnits]
      split
      · simp
      · have hrest := ih 0 (n - charUnits c) (l := l') (by simp [ht])
        rw [positionAt_behind_char hc, hrest]
        simp
    | succ line =>
      have hrest := ih (line + 1) n (l := l) (by simpa [ht] using h)
      rw [offsetAt_char_succ hc, positionAt_behind_char hc, hrest]
      simp

theorem indexOfUnits_beyond {l : Text} {n : Nat} (h : units l ≤ n) :
    indexOfUnits l n = l.length := by
  induction l generalizing n with
  | nil => simp
  | cons c l ih =>
    rw [units_cons] at h
    have hn : ¬ n < charUnits c := by omega
    rw [indexOfUnits, if_neg hn, ih (by omega), List.length_cons]

/-- A number of units that ends inside a character. -/
theorem indexOfUnits_inside {u v : Text} {c : Char} {k : Nat} (hk : k < charUnits c) :
    indexOfUnits (u ++ c :: v) (units u + k) = u.length := by
  induction u with
  | nil => simp [indexOfUnits, hk]
  | cons d u ih =>
    have hn : ¬ charUnits d + units u + k < charUnits d := by omega
    have hk' : charUnits d + units u + k - charUnits d = units u + k := by omega
    rw [List.cons_append, units_cons, indexOfUnits, if_neg hn, hk', ih, List.length_cons]

/-- Reading a position as an offset is adjoint to reading an offset as a position. Behind the last
line it ends at the end of the text, behind the end of a line at the end of that line, and inside a
character before that character. -/
theorem offset_adjoint_position (b : LineBreak) (t : Text) :
    (∀ p : Position, p.unchecked.offset b.text t = .ok (offsetAt b.text t p) ∧
      IsGreatest {i | i ≤ t.length ∧ OnBoundary b t i ∧ positionAt b.text t i ≤ p}
        (offsetAt b.text t p)) ∧
    (∀ i, i ≤ t.length → OnBoundary b t i → offsetAt b.text t (positionAt b.text t i) = i) ∧
    (∀ p q : Position, p ≤ q → offsetAt b.text t p ≤ offsetAt b.text t q) ∧
    (∀ p, (pieces b.text t).length ≤ p.line → offsetAt b.text t p = t.length) ∧
    (∀ p l, (pieces b.text t)[p.line]? = some l → units l ≤ p.character →
      positionAt b.text t (offsetAt b.text t p) = ⟨p.line, units l⟩) ∧
    ∀ line u c v k, (pieces b.text t)[line]? = some (u ++ c :: v) → k < charUnits c →
      positionAt b.text t (offsetAt b.text t ⟨line, units u + k⟩) = ⟨line, units u⟩ := by
  refine ⟨?adjoint, ?back, fun _ _ => offsetAt_mono t, fun _ h => offsetAt_beyond h, ?lineEnd,
    ?character⟩
  case adjoint =>
    exact fun p => ⟨Position.offset_unchecked t p, isGreatest_offsetAt t p⟩
  case back =>
    exact fun i hi h => offsetAt_positionAt hi h
  case lineEnd =>
    intro p l hl hn
    rw [positionAt_offsetAt hl, indexOfUnits_beyond hn, List.take_length]
  case character =>
    intro line u c v k hl hk
    rw [positionAt_offsetAt hl, indexOfUnits_inside hk, List.take_left]

/-- A text with a character of two units, an empty line, and a line that ends with `\r\r\n`. -/
theorem offset_adjoint_position_emoji :
    let t : Text := ['a', '😀', '\r', '\n', '\r', '\n', 'b', '\r', '\r', '\n']
    offsetAt LineBreak.crlf.text t (positionAt LineBreak.crlf.text t 8) = 8 ∧
      offsetAt LineBreak.crlf.text t ⟨4, 1⟩ = 10 ∧
      positionAt LineBreak.crlf.text t (offsetAt LineBreak.crlf.text t ⟨1, 7⟩) = ⟨1, 0⟩ ∧
      positionAt LineBreak.crlf.text t (offsetAt LineBreak.crlf.text t ⟨0, 2⟩) = ⟨0, 1⟩ := by
  intro t
  obtain ⟨-, hback, -, hbelow, hend, hinside⟩ := offset_adjoint_position .crlf t
  exact ⟨hback 8 (by decide) fun _ => rfl, hbelow ⟨4, 1⟩ (by decide),
    hend ⟨1, 7⟩ [] (by decide) (by decide), hinside 0 ['a'] '😀' [] 1 (by decide) (by decide)⟩

end Text

end GhostText
