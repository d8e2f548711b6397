import GhostText.Proofs.Document.Places
import GhostText.Proofs.Document.Splices

/-!
# Edits made all at once

What becomes of a text when splices in its coordinates are made all at once is said here offset by
offset: what is inserted at an offset, then what takes the place of a stretch that starts there,
then the character of the text, unless a stretch takes it away. No order of making them enters into
it but the one in which texts inserted at the same offset are joined.

Splices that are clear of each other, made one by one from the back, come to the same. Only the
texts inserted at one offset are joined from the last given to the first.
-/

namespace GhostText.Splice

/-- One stretch ends before the other starts; they may touch. -/
def Clear (s r : Splice) : Prop := s.stop ≤ r.start ∨ r.stop ≤ s.start

instance (s r : Splice) : Decidable (Clear s r) := inferInstanceAs (Decidable (_ ∨ _))

def insertsAt (i : Nat) (s : Splice) : Bool := s.start = i ∧ s.stop = i

/-- Whether something is put in place of a stretch that starts at an offset. -/
def replacesFrom (i : Nat) (s : Splice) : Bool := s.start = i ∧ i < s.stop

def takesAway (i : Nat) (s : Splice) : Bool := s.start ≤ i ∧ i < s.stop

/-- The texts inserted at an offset, in the order given. -/
def insertedAt (i : Nat) (ss : List Splice) : Text := (ss.filter (insertsAt i)).flatMap text

def replacementFrom (i : Nat) (ss : List Splice) : Text := (ss.filter (replacesFrom i)).flatMap text

def standsAt (t : Text) (ss : List Splice) (i : Nat) : Text :=
  insertedAt i ss ++ replacementFrom i ss ++ if ss.any (takesAway i) then [] else t[i]?.toList

def atOnce (t : Text) (ss : List Splice) : Text :=
  (List.range (t.length + 1)).flatMap (standsAt t ss)

variable {t : Text} {ss rr rest : List Splice} {s : Splice} {i k n : Nat}

/-! ## One offset -/

theorem insertedAt_cons (i : Nat) (s : Splice) (ss : List Splice) :
    insertedAt i (s :: ss) = (if insertsAt i s then s.text else []) ++ insertedAt i ss := by
  cases h : insertsAt i s <;> simp [insertedAt, h]

theorem replacementFrom_cons (i : Nat) (s : Splice) (ss : List Splice) :
    replacementFrom i (s :: ss) = (if replacesFrom i s then s.text else []) ++
      replacementFrom i ss := by
  cases h : replacesFrom i s <;> simp [replacementFrom, h]

structure Elsewhere (i : Nat) (s : Splice) : Prop where
  inserts : insertsAt i s = false
  replaces : replacesFrom i s = false
  takes : takesAway i s = false

theorem elsewhere_of_lt (h : i < s.start) : s.Elsewhere i := by
  constructor <;> simp only [insertsAt, replacesFrom, takesAway, decide_eq_false_iff_not] <;> omega

theorem elsewhere_of_le (hstart : s.start < i) (hstop : s.stop ≤ i) : s.Elsewhere i := by
  constructor <;> simp only [insertsAt, replacesFrom, takesAway, decide_eq_false_iff_not] <;> omega

theorem standsAt_elsewhere (h : s.Elsewhere i) : standsAt t (s :: rest) i = standsAt t rest i := by
  simp [standsAt, insertedAt_cons, replacementFrom_cons, h.inserts, h.replaces, h.takes]

/-- Before the first splice nothing is inserted and nothing replaced. -/
theorem insertedAt_before (h : ∀ s ∈ ss, i < s.start) :
    insertedAt i ss = [] ∧ replacementFrom i ss = [] := by
  induction ss with
  | nil => exact ⟨rfl, rfl⟩
  | cons s rest ih =>
    obtain ⟨hs, hrest⟩ := List.forall_mem_cons.1 h
    have hs := elsewhere_of_lt hs
    simpa [insertedAt_cons, replacementFrom_cons, hs.inserts, hs.replaces] using ih hrest

theorem standsAt_before (h : ∀ s ∈ ss, i < s.start) : standsAt t ss i = t[i]?.toList := by
  induction ss with
  | nil => simp [standsAt, insertedAt, replacementFrom]
  | cons s rest ih =>
    obtain ⟨hs, hrest⟩ := List.forall_mem_cons.1 h
    rw [standsAt_elsewhere (elsewhere_of_lt hs), ih hrest]

theorem standsAt_behind (hstart : s.start < i) (hstop : s.stop ≤ i) :
    standsAt t (s :: rest) i = standsAt t rest i :=
  standsAt_elsewhere (elsewhere_of_le hstart hstop)

/-- An insertion at an offset comes before what else stands there. -/
theorem standsAt_insertion (hstart : s.start = i) (hstop : s.stop = i) :
    standsAt t (s :: rest) i = s.text ++ standsAt t rest i := by
  have hins : insertsAt i s = true := by simp [insertsAt, hstart, hstop]
  have hrep : replacesFrom i s = false := by simp [replacesFrom, hstop]
  have htake : takesAway i s = false := by simp [takesAway, hstop]
  simp [standsAt, insertedAt_cons, replacementFrom_cons, hins, hrep, htake]

/-- Within a stretch with nothing else about it stands the text put in its place, all of it where
the stretch starts. -/
theorem standsAt_within (h : ∀ r ∈ rest, i < r.start) (hstart : s.start ≤ i) (hstop : i < s.stop) :
    standsAt t (s :: rest) i = if s.start = i then s.text else [] := by
  have hins : insertsAt i s = false := by
    simp only [insertsAt, decide_eq_false_iff_not]
    omega
  have hrep : replacesFrom i s = decide (s.start = i) := by simp [replacesFrom, hstop]
  have htake : takesAway i s = true := by simp [takesAway, hstart, hstop]
  obtain ⟨hnone, hnone'⟩ := insertedAt_before h
  simp [standsAt, insertedAt_cons, replacementFrom_cons, hins, hrep, htake, hnone, hnone']

/-! ## Splices one behind the other -/

theorem range'_split {m : Nat} (h : k ≤ m) (hn : m ≤ n) :
    List.range' k (n - k) = List.range' k (m - k) ++ List.range' m (n - m) := by
  have hm : k + (m - k) = m := by omega
  have he : m - k + (n - m) = n - k := by omega
  have hsplit := List.range'_append_1 (s := k) (m := m - k) (n := n - m)
  rw [hm, he] at hsplit
  exact hsplit.symm

/-- The characters between two offsets, one by one. -/
theorem flatMap_chars (t : Text) (k n : Nat) :
    (List.range' k n).flatMap (fun i => t[i]?.toList) = Text.slice t k (k + n) := by
  induction n generalizing k with
  | zero => simp [Text.slice]
  | succ n ih =>
    rw [List.range'_succ, List.flatMap_cons, ih, Text.slice, Text.slice]
    have he : k + 1 + n = k + (n + 1) := by omega
    rw [he]
    by_cases hk : k < t.length
    · have hl : k < (t.take (k + (n + 1))).length := by
        rw [List.length_take]
        omega
      rw [List.getElem?_eq_getElem hk, List.drop_eq_getElem_cons hl, List.getElem_take]
      rfl
    · rw [List.getElem?_eq_none (by omega), List.drop_eq_nil_of_le, List.drop_eq_nil_of_le]
      · rfl
      · rw [List.length_take]
        omega
      · rw [List.length_take]
        omega

/-- What stands in the place of the offsets from one up to another. -/
def standsFrom (t : Text) (ss : List Splice) (k n : Nat) : Text :=
  (List.range' k (n - k)).flatMap (standsAt t ss)

/-- What stands between two offsets may be put together at any offset between them. -/
theorem standsFrom_split {m : Nat} (h : k ≤ m) (hn : m ≤ n) :
    standsFrom t ss k n = standsFrom t ss k m ++ standsFrom t ss m n := by
  rw [standsFrom, range'_split h hn, List.flatMap_append]
  rfl

theorem standsFrom_step (h : k < n) :
    standsFrom t ss k n = standsAt t ss k ++ standsFrom t ss (k + 1) n := by
  have hn : n - k = n - (k + 1) + 1 := by omega
  rw [standsFrom, hn, List.range'_succ, List.flatMap_cons]
  rfl

/-- Splices that leave the same at each offset leave the same text. -/
theorem standsFrom_congr (h : ∀ i, k ≤ i → i < n → standsAt t ss i = standsAt t rr i) :
    standsFrom t ss k n = standsFrom t rr k n := by
  refine List.flatMap_congr fun i hi => h i ?_ ?_
  all_goals
    rw [List.mem_range'_1] at hi
    omega

/-- Before the first splice the text is as it was. -/
theorem standsFrom_before (hk : k ≤ n) (h : ∀ s ∈ ss, n ≤ s.start) :
    standsFrom t ss k n = Text.slice t k n := by
  have he : standsFrom t ss k n = (List.range' k (n - k)).flatMap fun i => t[i]?.toList := by
    refine List.flatMap_congr fun i hi => standsAt_before fun s hs => ?_
    have := h s hs
    rw [List.mem_range'_1] at hi
    omega
  rw [he, flatMap_chars, Nat.add_sub_cancel' hk]

/-- Up to where a splice that comes first ends stands its text, and from there on what stands there
without it. -/
theorem standsFrom_first (hs : s.start ≤ s.stop) (hr : ∀ r ∈ rest, s.stop ≤ r.start)
    (hn : s.stop < n) :
    standsFrom t (s :: rest) s.start n = s.text ++ standsFrom t rest s.stop n := by
  by_cases he : s.start = s.stop
  · have hbehind : standsFrom t (s :: rest) (s.stop + 1) n = standsFrom t rest (s.stop + 1) n :=
      standsFrom_congr fun i hi _ => standsAt_behind (by omega) (by omega)
    have hrest : standsFrom t rest s.stop n =
        standsAt t rest s.stop ++ standsFrom t rest (s.stop + 1) n := standsFrom_step hn
    rw [he, standsFrom_step hn, standsAt_insertion he rfl, hbehind, hrest, List.append_assoc]
  · have hwithin : ∀ i, s.start ≤ i → i < s.stop →
        standsAt t (s :: rest) i = if s.start = i then s.text else [] := by
      intro i hi hi'
      refine standsAt_within (fun r hrm => ?_) hi hi'
      have := hr r hrm
      omega
    have hinside : standsFrom t (s :: rest) (s.start + 1) s.stop = [] := by
      refine List.flatMap_eq_nil_iff.2 fun i hi => ?_
      rw [List.mem_range'_1] at hi
      rw [hwithin i (by omega) (by omega), if_neg (by omega)]
    have hbehind : standsFrom t (s :: rest) s.stop n = standsFrom t rest s.stop n :=
      standsFrom_congr fun i hi _ => standsAt_behind (by omega) (by omega)
    rw [standsFrom_split hs (by omega), standsFrom_step (by omega), hinside, hbehind,
      hwithin s.start (Nat.le_refl _) (by omega), if_pos rfl, List.append_nil]

/-- Weaving ascending splices into a text makes them all at once. -/
theorem weave_eq_standsFrom (h : Ascending t.length k ss) :
    weave t k ss = standsFrom t ss k (t.length + 1) := by
  induction ss generalizing k with
  | nil =>
    have hk : k ≤ t.length := h
    rw [standsFrom_before (by omega) (by simp), weave, Text.slice,
      List.take_of_length_le (by omega)]
  | cons s rest ih =>
    obtain ⟨hstart, hs, hrest⟩ := h
    have hr : ∀ r ∈ rest, s.stop ≤ r.start := fun r hrm => (hrest.start_le r hrm).1
    have hbefore : ∀ r ∈ s :: rest, s.start ≤ r.start := by
      intro r hrm
      rcases List.mem_cons.1 hrm with rfl | hrm
      · exact Nat.le_refl _
      · exact Nat.le_trans hs (hr r hrm)
    have hstop := hrest.le
    rw [weave, ih hrest, standsFrom_split hstart (by omega), standsFrom_before hstart hbefore,
      standsFrom_first hs hr (by omega), List.append_assoc]

theorem atOnce_eq_standsFrom (t : Text) (ss : List Splice) :
    atOnce t ss = standsFrom t ss 0 (t.length + 1) := by
  rw [atOnce, standsFrom, List.range_eq_range']
  rfl

/-! ## The order given -/

/-- What stands at an offset hangs on the order of insertions there, and on no other order. -/
theorem standsAt_congr (hins : ss.filter (insertsAt i) = rr.filter (insertsAt i))
    (hrep : ss.filter (replacesFrom i) = rr.filter (replacesFrom i)) (hp : ss.Perm rr) :
    standsAt t ss i = standsAt t rr i := by
  have hany : ss.any (takesAway i) = rr.any (takesAway i) := hp.any_eq
  rw [standsAt, standsAt, insertedAt, insertedAt, replacementFrom, replacementFrom, hins, hrep,
    hany]

/-- A stable sort leaves those in the order given that may stand in any order. -/
theorem filter_mergeSort {p : Splice → Bool} (h : ∀ s ∈ ss, ∀ r ∈ ss, p s → p r → notBefore s r) :
    (ss.mergeSort notBefore).filter p = ss.filter p := by
  have hsorted : (ss.filter p).Pairwise fun s r => notBefore s r = true := by
    refine List.pairwise_of_forall_mem_list fun s hs r hr => ?_
    obtain ⟨hs, hps⟩ := List.mem_filter.1 hs
    obtain ⟨hr, hpr⟩ := List.mem_filter.1 hr
    exact h s hs r hr hps hpr
  have hsub : ((ss.filter p).filter p).Sublist ((ss.mergeSort notBefore).filter p) :=
    (List.sublist_mergeSort notBefore_trans notBefore_total hsorted List.filter_sublist).filter p
  have hlength : ((ss.mergeSort notBefore).filter p).length = (ss.filter p).length :=
    ((List.mergeSort_perm ss notBefore).filter p).length_eq
  simp only [List.filter_filter, Bool.and_self] at hsub
  exact (hsub.eq_of_length hlength.symm).symm

/-- At most one of some splices is picked, whatever their order, if no two of them may be. -/
theorem filter_eq_of_perm {p : Splice → Bool} (hp : ss.Perm rr)
    (h : ss.Pairwise fun s r => ¬ (p s ∧ p r)) : ss.filter p = rr.filter p := by
  have hpick := hp.filter p
  have hone : (ss.filter p).Pairwise fun _ _ => False := by
    rw [List.pairwise_filter]
    exact h.imp fun hsr hs hr => hsr ⟨hs, hr⟩
  match hf : ss.filter p, hone with
  | [], _ => rw [hf] at hpick; exact hpick.nil_eq
  | [s], _ => rw [hf] at hpick; exact (List.perm_singleton.1 hpick.symm).symm
  | s :: r :: _, hone => exact ((List.pairwise_cons.1 hone).1 r (by simp)).elim

theorem Clear.symm {r : Splice} (h : Clear s r) : Clear r s := Or.symm h

theorem Clear.not_replacesFrom {r : Splice} (h : Clear s r) :
    ¬ (replacesFrom i s ∧ replacesFrom i r) := by
  simp only [replacesFrom, decide_eq_true_eq]
  rcases h with h | h <;> omega

/-- Sorted from the back, splices that are clear of each other ascend when read from the front. -/
theorem ascending_of_pairwise (hk : k ≤ n)
    (hin : ∀ s ∈ ss, k ≤ s.start ∧ s.start ≤ s.stop ∧ s.stop ≤ n)
    (hsorted : ss.Pairwise fun s r => notBefore r s) (hc : ss.Pairwise Clear) :
    Ascending n k ss := by
  induction ss generalizing k with
  | nil => exact hk
  | cons s rest ih =>
    obtain ⟨hs, hrest⟩ := List.forall_mem_cons.1 hin
    obtain ⟨hfirst, hsorted⟩ := List.pairwise_cons.1 hsorted
    obtain ⟨hclear, hc⟩ := List.pairwise_cons.1 hc
    refine ⟨hs.1, hs.2.1, ih hs.2.2 (fun r hr => ?_) hsorted hc⟩
    have hbounds := hrest r hr
    have horder := hfirst r hr
    rw [notBefore_iff] at horder
    refine ⟨?_, hbounds.2⟩
    rcases hclear r hr with h | h <;> omega

/-- Splices clear of each other, made from the back, are made all at once, the texts inserted at one
offset in the reverse order. -/
theorem applyAll_eq_atOnce (hin : ∀ s ∈ ss, s.start ≤ s.stop ∧ s.stop ≤ t.length)
    (hc : ss.Pairwise Clear) : applyAll t ss = atOnce t ss.reverse := by
  have hperm : (ss.mergeSort notBefore).reverse.Perm ss :=
    (List.reverse_perm _).trans (List.mergeSort_perm ss notBefore)
  have hasc : Ascending t.length 0 (ss.mergeSort notBefore).reverse := by
    refine ascending_of_pairwise (Nat.zero_le _) (fun s hs => ?_) ?_ ?_
    · exact ⟨Nat.zero_le _, hin s (hperm.mem_iff.1 hs)⟩
    · rw [List.pairwise_reverse]
      exact List.pairwise_mergeSort notBefore_trans notBefore_total ss
    · exact (hperm.pairwise_iff Clear.symm).2 hc
  have hstand : ∀ i, standsAt t (ss.mergeSort notBefore).reverse i = standsAt t ss.reverse i := by
    intro i
    have hins : (ss.mergeSort notBefore).filter (insertsAt i) = ss.filter (insertsAt i) := by
      refine filter_mergeSort fun s _ r _ hs hr => ?_
      simp only [insertsAt, decide_eq_true_eq] at hs hr
      rw [notBefore_iff]
      omega
    refine standsAt_congr ?_ ?_ (hperm.trans (List.reverse_perm ss).symm)
    · rw [List.filter_reverse, List.filter_reverse, hins]
    · refine filter_eq_of_perm (hperm.trans (List.reverse_perm ss).symm) ?_
      exact ((hperm.pairwise_iff Clear.symm).2 hc).imp Clear.not_replacesFrom
  calc applyAll t ss
      = (ss.mergeSort notBefore).reverse.foldr apply t := by
        rw [applyAll, List.foldr_reverse]
    _ = standsFrom t (ss.mergeSort notBefore).reverse 0 (t.length + 1) := by
        rw [foldr_apply hasc, weave_eq_standsFrom hasc, List.take_zero, List.nil_append]
    _ = atOnce t ss.reverse := by
        rw [standsFrom_congr fun i _ _ => hstand i, atOnce_eq_standsFrom]

/-- Where no two splices are about the same stretch, all orders come to the same. -/
theorem atOnce_perm (hp : ss.Perm rr) (hc : ss.Pairwise Clear)
    (hd : ss.Pairwise fun s r => (s.start, s.stop) ≠ (r.start, r.stop)) :
    atOnce t ss = atOnce t rr := by
  refine List.flatMap_congr fun i _ => standsAt_congr ?_ ?_ hp
  · refine filter_eq_of_perm hp (hd.imp fun hne => ?_)
    simp only [insertsAt, decide_eq_true_eq]
    rw [Ne, Prod.mk.injEq] at hne
    omega
  · exact filter_eq_of_perm hp (hc.imp Clear.not_replacesFrom)

/-- Pieces of the same lengths make the same text only if they are the same. -/
theorem flatMap_inj {f g : Nat → Text} {is : List Nat}
    (hl : ∀ i ∈ is, (f i).length = (g i).length) (h : is.flatMap f = is.flatMap g) :
    ∀ i ∈ is, f i = g i := by
  induction is with
  | nil => simp
  | cons i is ih =>
    rw [List.flatMap_cons, List.flatMap_cons] at h
    obtain ⟨hi, hrest⟩ := List.append_inj h (hl i (by simp))
    exact List.forall_mem_cons.2 ⟨hi, ih (fun j hj => hl j (List.mem_cons_of_mem i hj)) hrest⟩

theorem length_insertedAt_reverse (ss : List Splice) (i : Nat) :
    (insertedAt i ss.reverse).length = (insertedAt i ss).length := by
  rw [insertedAt, insertedAt, List.filter_reverse, List.length_flatMap, List.length_flatMap,
    List.map_reverse, List.sum_reverse]

/-- The reverse order comes to the same exactly if at each offset the inserted texts do, joined
either way. -/
theorem atOnce_reverse_eq_iff (hc : ss.Pairwise Clear) : atOnce t ss.reverse = atOnce t ss ↔
    ∀ i ≤ t.length, insertedAt i ss.reverse = insertedAt i ss := by
  have hperm := List.reverse_perm ss
  have hrest : ∀ i, standsAt t ss.reverse i = insertedAt i ss.reverse ++ (replacementFrom i ss ++
      if ss.any (takesAway i) then [] else t[i]?.toList) := by
    intro i
    have hrep : ss.reverse.filter (replacesFrom i) = ss.filter (replacesFrom i) :=
      (filter_eq_of_perm hperm.symm (hc.imp Clear.not_replacesFrom)).symm
    rw [standsAt, replacementFrom, hrep, hperm.any_eq, List.append_assoc, replacementFrom]
  constructor
  · intro h i hi
    have hlength : ∀ j ∈ List.range (t.length + 1),
        (standsAt t ss.reverse j).length = (standsAt t ss j).length := by
      intro j _
      rw [hrest, standsAt, List.append_assoc, List.length_append, length_insertedAt_reverse,
        ← List.length_append]
    have heq := flatMap_inj hlength h i (by rw [List.mem_range]; omega)
    rw [hrest, standsAt, List.append_assoc] at heq
    exact List.append_cancel_right heq
  · intro h
    refine List.flatMap_congr fun i hi => ?_
    rw [List.mem_range] at hi
    rw [hrest, h i (by omega), standsAt, List.append_assoc]

end GhostText.Splice
