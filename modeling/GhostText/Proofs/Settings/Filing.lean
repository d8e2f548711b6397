import GhostText.Proofs.Json.Pages
import GhostText.Proofs.Json.Sorting
import GhostText.Proofs.Settings.Loading
import GhostText.Proofs.Text.Utf8

/-!
# A file that is written and read

The settings are written as a page, and the file then offers them with their keys in order. It
offers nothing else, since a file offers one object at most.
-/

namespace GhostText

namespace Disk

variable {disk disk' : Disk} {fields gs : Fields}

/-- Text mode changes nothing where no carriage return stands. -/
theorem plainBreaks_eq_self {t : Text} (h : '\r' ∉ t) : plainBreaks t = t := by
  induction t with
  | nil => rfl
  | cons c t ih =>
    rw [List.mem_cons, not_or] at h
    rw [plainBreaks, ih h.2]
    · rintro t rfl -
      exact h.1 rfl
    · rintro rfl
      exact h.1 rfl

/-- A file offers one object at most. -/
theorem Offers.unique (h : disk.Offers fields) (h' : disk.Offers gs) : fields = gs := by
  rw [← readObject_eq_ok_iff] at h h'
  exact Except.ok.inj (h.symm.trans h')

/-- What is written is a file; nothing else is said of the place of the settings. -/
theorem writeText_eq_ok {text : String} (h : disk.writeText text = .ok disk') :
    disk' = { disk with place := .file (Text.Utf8.encodeString text) } := by
  unfold writeText at h
  split at h
  · cases h
  · cases h
  · cases h
  · exact (Except.ok.inj h).symm

/-- A file is written again as it was before. -/
theorem writeText_again {text : String} (h : disk.writeText text = .ok disk') :
    disk'.writeText text = .ok disk' := by
  rw [writeText_eq_ok h]
  rfl

/-- A file that was written is there. -/
theorem hasFile_of_writeText {text : String} (h : disk.writeText text = .ok disk') :
    disk'.hasFile = true := by
  rw [writeText_eq_ok h]
  rfl

/-- Plain settings are offered by the file they are written to, with their keys in order. -/
theorem offers_of_writeText (hf : (Json.obj fields).isPlain)
    (h : disk.writeText (Json.page (.obj fields)) = .ok disk') : disk'.Offers fields.sorted := by
  have hsorted : (Json.obj fields.sorted).isPlain := Json.sorted_obj fields ▸ Json.isPlain_sorted hf
  have hread := Json.read_writePage hsorted
  refine ⟨_, ⟨_, _, congrArg place (writeText_eq_ok h), Text.Utf8.decodeStrict_encode _, ?_⟩, hread⟩
  rw [Json.page, String.toList_ofList, plainBreaks_eq_self (Json.not_mem_writePage 0 _),
    Json.sorted_obj]

end Disk

/-- Saving writes the page of the settings, after which there is nothing more to be written and
nothing amiss. -/
theorem Store.save_eq_ok {α : Type} {s s' : Store α} {disk disk' : Disk}
    (hp : s.persistent = true) (h : s.save disk = .ok (disk', s')) :
    disk.writeText (Json.page (.obj s.data)) = .ok disk' ∧
      s' = { s with dirty := false, lastError := none } := by
  rw [save, if_neg (by simp [hp])] at h
  split at h
  · cases h
  · next written hwrite =>
    obtain ⟨rfl, rfl⟩ := Prod.mk.inj (Except.ok.inj h)
    exact ⟨hwrite, rfl⟩

end GhostText
