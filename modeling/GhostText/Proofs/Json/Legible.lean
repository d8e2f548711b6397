import GhostText.Proofs.Json.Members
import GhostText.Proofs.Json.Parts
import Mathlib.Algebra.Group.Nat.Defs

/-!
# What is read

A value that is read has no key twice in any of its objects, and its integers are short enough to be
read again. So it is plain as soon as it has no binary fractions.
-/

namespace GhostText

/-- A number of so many digits is below that power of ten. -/
theorem Text.ofDigits_lt {ds : List Nat} (h : ∀ d ∈ ds, d < 10) :
    ofDigits ds < 10 ^ ds.length := by
  have hfrom : ∀ n, ds.foldl (fun n d => 10 * n + d) n < (n + 1) * 10 ^ ds.length := by
    induction ds with
    | nil => simp
    | cons d ds ih =>
      intro n
      obtain ⟨hd, hds⟩ := List.forall_mem_cons.1 h
      calc ds.foldl (fun n d => 10 * n + d) (10 * n + d)
          < (10 * n + d + 1) * 10 ^ ds.length := ih hds _
        _ ≤ (n + 1) * 10 * 10 ^ ds.length := Nat.mul_le_mul_right _ (by omega)
        _ = (n + 1) * 10 ^ (d :: ds).length := by
          rw [List.length_cons, Nat.pow_succ', Nat.mul_assoc]
  simpa [ofDigits] using hfrom 0

namespace Fields

variable {P : Json → Bool} {fs : Fields}

/-- What holds of all members and of a value that is put holds of all members then. -/
theorem forall_mem_put (h : ∀ f ∈ fs, P f.2) {v : Json} (hv : P v) (k : String) :
    ∀ f ∈ put k v fs, P f.2 := by
  induction fs with
  | nil => simpa [put] using hv
  | cons f fs ih =>
    obtain ⟨hf, hfs⟩ := List.forall_mem_cons.1 h
    rw [put]
    split
    · exact List.forall_mem_cons.2 ⟨hv, hfs⟩
    · exact List.forall_mem_cons.2 ⟨hf, ih hfs⟩

theorem forall_mem_ofPairs {pairs : List (String × Json)} (h : ∀ f ∈ pairs, P f.2) :
    ∀ f ∈ ofPairs pairs, P f.2 := by
  rw [ofPairs]
  have hnil : ∀ f ∈ ([] : Fields), P f.2 := by simp
  generalize ([] : Fields) = fs at hnil
  induction pairs generalizing fs with
  | nil => exact hnil
  | cons p pairs ih =>
    obtain ⟨hp, hpairs⟩ := List.forall_mem_cons.1 h
    exact ih hpairs _ (forall_mem_put hnil hp p.1)

end Fields

namespace Json

open Fields

/-! ## Words and numbers -/

theorem isDigit_whole {cs rest : List Char} {p : NumberParts}
    (h : numberParts? cs = some (p, rest)) : ∀ c ∈ p.whole, c.isDigit := by
  obtain ⟨⟨whole, body⟩, hw, hp⟩ := Option.map_eq_some_iff.1 h
  obtain ⟨rfl, -⟩ := Prod.mk.inj hp
  dsimp only at hw ⊢
  split at hw
  · obtain ⟨rfl, -⟩ := Prod.mk.inj (Option.some.inj hw)
    exact List.forall_mem_singleton.2 rfl
  · split at hw
    · obtain ⟨rfl, -⟩ := Prod.mk.inj (Option.some.inj hw)
      exact fun c hc => List.mem_takeWhile_imp hc
    · contradiction
  · contradiction

/-- The number that is read of its parts can be read again. -/
theorem everywhere_isLegible_value {p : NumberParts} {v : Json} (hp : ∀ c ∈ p.whole, c.isDigit)
    (h : p.value = .ok v) : v.everywhere isLegible := by
  unfold NumberParts.value at h
  split at h
  · split at h
    · contradiction
    · next hlimit =>
      obtain rfl := Except.ok.inj h
      have hdigits : digitsOf p.whole < 10 ^ Text.digitLimit := by
        have hlt : digitsOf p.whole < 10 ^ (p.whole.map fun c => c.toNat - 48).length := by
          refine Text.ofDigits_lt fun d hd => ?_
          obtain ⟨c, hc, rfl⟩ := List.mem_map.1 hd
          have := Text.toNat_of_isDigit (hp c hc)
          omega
        rw [List.length_map] at hlt
        exact hlt.trans_le (Nat.pow_le_pow_right (by decide) (Nat.not_lt.1 hlimit))
      have hlength : (Nat.toDigits 10 (digitsOf p.whole)).length ≤ Text.digitLimit :=
        (Nat.length_toDigits_le_iff (by decide) (by decide)).2 hdigits
      cases p.negative <;> simpa [everywhere, isLegible, hasKeysOnce, isShort] using hlength
  · obtain rfl := Except.ok.inj h
    rfl

theorem everywhere_isLegible_readScalar {cs rest : List Char} {v : Json}
    (h : readScalar cs = .ok (v, rest)) : v.everywhere isLegible := by
  rw [readScalar] at h
  split at h
  · next w hw =>
    obtain ⟨rfl, -⟩ := Prod.mk.inj (Except.ok.inj h)
    have hall : ∀ w ∈ wordValues, w.2.everywhere isLegible := by
      simp [wordValues, everywhere, isLegible, hasKeysOnce, isShort]
    exact hall w (List.mem_of_find?_eq_some hw)
  · split at h
    · contradiction
    · next p r hp =>
      split at h
      · next u hu =>
        obtain ⟨rfl, -⟩ := Prod.mk.inj (Except.ok.inj h)
        exact everywhere_isLegible_value (isDigit_whole hp) hu
      · contradiction

/-! ## Values -/

mutual

/-- What is read as a value can be read again, and so can all in it. -/
theorem ReadsValue.isLegible {cs rest : List Char} {v : Json} (h : ReadsValue cs v rest) :
    v.everywhere isLegible :=
  match h with
  | .text _ => rfl
  | .noItems _ => rfl
  | .items read => everywhere_arr.2 ⟨rfl, read.isLegible⟩
  | .noMembers _ => rfl
  | @ReadsValue.members _ _ fs read => by
    have hkeys : Json.isLegible (.obj (ofPairs fs)) := by
      simp [Json.isLegible, hasKeysOnce, isShort, nodup_keys_ofPairs]
    exact everywhere_obj.2 ⟨hkeys, forall_mem_ofPairs read.isLegible⟩
  | .scalar read => everywhere_isLegible_readScalar read

theorem ReadsItems.isLegible {cs rest : List Char} {vs : List Json} (h : ReadsItems cs vs rest) :
    ∀ v ∈ vs, v.everywhere isLegible :=
  match h with
  | .last item _ => List.forall_mem_singleton.2 item.isLegible
  | .more item _ read => List.forall_mem_cons.2 ⟨item.isLegible, read.isLegible⟩

theorem ReadsMembers.isLegible {cs rest : List Char} {fs : List (String × Json)}
    (h : ReadsMembers cs fs rest) : ∀ f ∈ fs, f.2.everywhere isLegible :=
  match h with
  | .last _ _ value _ => List.forall_mem_singleton.2 value.isLegible
  | .more _ _ value _ read => List.forall_mem_cons.2 ⟨value.isLegible, read.isLegible⟩

end

/-- A value that was read is one that can be read again. -/
theorem everywhere_isLegible_of_read {t : Text} {v : Json} (h : read t = .ok v) :
    v.everywhere isLegible := by
  obtain ⟨rest, hread, -⟩ := readsValue_of_read h
  exact hread.isLegible

/-- An object that is read has no key twice. -/
theorem nodup_keys_read {t : Text} {v : Json} (h : read t = .ok v) : v.fields.keys.Nodup := by
  obtain ⟨fields, rfl⟩ | hv := v.isObject_cases
  · have hkeys := (everywhere_obj.1 (everywhere_isLegible_of_read h)).1
    rw [isLegible, Bool.and_eq_true] at hkeys
    exact of_decide_eq_true hkeys.1
  · cases v with
    | obj fields => cases hv
    | _ => exact List.nodup_nil

/-- What is read is plain unless there is a binary fraction in it. -/
theorem isPlain_of_read {t : Text} {v : Json} (h : read t = .ok v) (hv : v.everywhere isExact) :
    v.isPlain :=
  isPlain_iff.2 ⟨everywhere_isLegible_of_read h, hv⟩

end Json

end GhostText
