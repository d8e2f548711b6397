import GhostText.Document.Edit

/-!
# Splices of one text

Splices that ascend and do not overlap, made from the last to the first, give what weaving their
texts into the untouched stretches gives. The order in which they are handed over does not count, as
long as no two are about the same stretch.
-/

namespace GhostText.Splice

/-! ## One splice -/

variable {p : Splice} {t : Text}

theorem take_apply (h : p.start ≤ t.length) : (p.apply t).take p.start = t.take p.start := by
  rw [apply, List.append_assoc, List.take_left' (List.length_take_of_le h)]

theorem drop_apply (h : p.start ≤ t.length) :
    (p.apply t).drop (p.start + p.text.length) = t.drop p.stop := by
  rw [apply, List.drop_left' (by rw [List.length_append, List.length_take_of_le h])]

theorem length_apply (h : p.start ≤ t.length) :
    (p.apply t).length = p.start + p.text.length + (t.length - p.stop) := by
  rw [apply, List.length_append, List.length_append, List.length_take_of_le h, List.length_drop]

/-! ## Many splices -/

/-- Splices one behind the other between two offsets. They may touch. -/
def Ascending (stop : Nat) : (start : Nat) → List Splice → Prop
  | start, [] => start ≤ stop
  | start, s :: rest => start ≤ s.start ∧ s.start ≤ s.stop ∧ Ascending stop s.stop rest

/-- The text behind an offset, with every stretch replaced at once. -/
def weave (t : Text) : (start : Nat) → List Splice → Text
  | start, [] => t.drop start
  | start, s :: rest => Text.slice t start s.start ++ s.text ++ weave t s.stop rest

theorem Ascending.le {stop start : Nat} {ss : List Splice} (h : Ascending stop start ss) :
    start ≤ stop := by
  induction ss generalizing start with
  | nil => exact h
  | cons s rest ih =>
    obtain ⟨h₁, h₂, h₃⟩ := h
    have := ih h₃
    omega

/-- Every splice behind an offset begins behind it. -/
theorem Ascending.start_le {stop start : Nat} {ss : List Splice} (h : Ascending stop start ss) :
    ∀ s ∈ ss, start ≤ s.start ∧ s.start ≤ s.stop := by
  induction ss generalizing start with
  | nil => simp
  | cons s rest ih =>
    obtain ⟨h₁, h₂, h₃⟩ := h
    intro r hr
    rcases List.mem_cons.1 hr with rfl | hr
    · exact ⟨h₁, h₂⟩
    · have := ih h₃ r hr
      omega

/-- Of two splices the one that starts later comes first, and of those with one start the one that
ends later does not come behind. -/
theorem notBefore_iff (a b : Splice) : notBefore a b = true ↔
    b.start < a.start ∨ b.start = a.start ∧ b.stop ≤ a.stop := by
  simp [notBefore]

theorem notBefore_trans (a b c : Splice) (h : notBefore a b) (h' : notBefore b c) :
    notBefore a c := by
  rw [notBefore_iff] at *
  omega

theorem notBefore_total (a b : Splice) : notBefore a b || notBefore b a := by
  rw [Bool.or_eq_true, notBefore_iff, notBefore_iff]
  omega

/-- Ascending splices are in the order of their making when they are turned round. -/
theorem Ascending.pairwise {stop start : Nat} {ss : List Splice} (h : Ascending stop start ss) :
    ss.reverse.Pairwise fun a b => notBefore a b := by
  rw [List.pairwise_reverse]
  induction ss generalizing start with
  | nil => exact List.Pairwise.nil
  | cons s rest ih =>
    obtain ⟨_, h₂, h₃⟩ := h
    refine List.Pairwise.cons ?_ (ih h₃)
    intro r hr
    have := h₃.start_le r hr
    rw [notBefore_iff]
    omega

/-- Sorting brings splices of different stretches into the one descending order they have. -/
theorem mergeSort_eq_reverse {stop start : Nat} {ss ascending : List Splice}
    (hp : ss.Perm ascending) (ha : Ascending stop start ascending)
    (hd : ascending.Pairwise fun a b => (a.start, a.stop) ≠ (b.start, b.stop)) :
    ss.mergeSort notBefore = ascending.reverse := by
  have hperm : (ss.mergeSort notBefore).Perm ascending.reverse :=
    (List.mergeSort_perm ss notBefore).trans (hp.trans (List.reverse_perm ascending).symm)
  have hsort := List.pairwise_mergeSort notBefore_trans notBefore_total ss
  refine List.Perm.eq_of_pairwise ?_ hsort ha.pairwise hperm
  intro a b ma mb hab hba
  have ha' : a ∈ ascending := hp.mem_iff.1 (List.mem_mergeSort.1 ma)
  have hb' : b ∈ ascending := List.mem_reverse.1 mb
  have he : (a.start, a.stop) = (b.start, b.stop) := by
    rw [notBefore_iff] at hab hba
    rw [Prod.mk.injEq]
    omega
  have hone := List.Pairwise.forall_of_forall_of_flip
    (R := fun a b : Splice => (a.start, a.stop) = (b.start, b.stop) → a = b)
    (fun _ _ _ => rfl) (hd.imp fun h e => absurd e h) (hd.imp fun h e => absurd e.symm h)
  exact hone ha' hb' he

/-- Making ascending splices from the last on weaves them into the text. -/
theorem foldr_apply {t : Text} {start : Nat} {ss : List Splice} (h : Ascending t.length start ss) :
    ss.foldr apply t = t.take start ++ weave t start ss := by
  induction ss generalizing start with
  | nil => simp [weave]
  | cons s rest ih =>
    obtain ⟨h₁, h₂, h₃⟩ := h
    have hl : (t.take s.stop).length = s.stop := by
      rw [List.length_take]
      have := h₃.le
      omega
    have ht : (t.take s.stop ++ weave t s.stop rest).take s.start = t.take s.start := by
      rw [List.take_append_of_le_length (by omega), List.take_take, Nat.min_eq_left h₂]
    have hd : (t.take s.stop ++ weave t s.stop rest).drop s.stop = weave t s.stop rest :=
      List.drop_left' hl
    have hs : t.take s.start = t.take start ++ Text.slice t start s.start := by
      have hm : (t.take s.start).take start = t.take start := by
        rw [List.take_take, Nat.min_eq_left h₁]
      rw [← hm, Text.slice, List.take_append_drop]
    rw [List.foldr_cons, ih h₃, apply, ht, hd, hs, weave]
    simp only [List.append_assoc]

/-- Splices of different stretches that do not overlap are all made at once. -/
theorem applyAll_eq_weave {t : Text} {ss ascending : List Splice} (hp : ss.Perm ascending)
    (ha : Ascending t.length 0 ascending)
    (hd : ascending.Pairwise fun a b => (a.start, a.stop) ≠ (b.start, b.stop)) :
    applyAll t ss = weave t 0 ascending := by
  rw [applyAll, mergeSort_eq_reverse hp ha hd, List.foldl_reverse]
  simpa using foldr_apply ha

end GhostText.Splice
