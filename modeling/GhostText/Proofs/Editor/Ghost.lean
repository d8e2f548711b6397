import GhostText.Editor.Artifact
import GhostText.Proofs.Document.Places

/-!
# A suggestion on the canvas

A suggestion that was just shown is found, and to take it away and put back the history is to have
the text, the caret and the history from before it, wherever the caret stands. A panel is left
empty.
-/

namespace GhostText

theorem Text.slice_inserted {t : Text} {i : Nat} (hi : i ≤ t.length) (u : Text) :
    Text.slice (t.take i ++ u ++ t.drop i) i (i + u.length) = u := by
  have hl : (t.take i).length = i := List.length_take_of_le hi
  have htake : (t.take i ++ u ++ t.drop i).take (i + u.length) = t.take i ++ u :=
    List.take_left' (by simp [hl])
  rw [Text.slice, htake, List.drop_left' hl]

namespace Buffer

variable {b : Buffer} {i : Nat}

/-- What was put in aside is found where it was put. -/
theorem stretch?_spliceAside (hi : i ≤ b.text.length) (u : Text) :
    Artifact.stretch? i u false (b.spliceAside i i u) = some (i, i + u.length) := by
  have hslice := Text.slice_inserted hi u
  simp only [Artifact.stretch?, spliceAside, Splice.apply, hslice, Bool.false_or, bne_self_eq_false,
    Bool.false_eq_true, if_false]

/-- Taking out what was put in aside gives back the text and the caret. -/
theorem spliceAside_spliceAside (hi : i ≤ b.text.length) (u : Text) :
    { (b.spliceAside i i u).spliceAside i (i + u.length) [] with history := b.history } = b := by
  have hl : (b.text.take i).length = i := List.length_take_of_le hi
  obtain ⟨t, caret, history, eol⟩ := b
  simp only at hi hl
  simp only [spliceAside, Splice.apply, Buffer.mk.injEq, and_true]
  constructor
  · have hdrop : (t.take i ++ u ++ t.drop i).drop (i + u.length) = t.drop i :=
      List.drop_left' (by simp [hl])
    have htake : (t.take i ++ u ++ t.drop i).take i = t.take i := by
      rw [List.append_assoc, List.take_left' hl]
    rw [hdrop, htake, List.append_nil, List.take_append_drop]
  · -- a caret behind the place moves on with the text and back again, any other one stays
    by_cases h : i < caret
    · have hmove : max i (caret + u.length - (i - i)) = caret + u.length := by omega
      rw [if_pos h, hmove, if_pos (by omega)]
      simp only [List.length_nil]
      omega
    · rw [if_neg h, if_neg h]

end Buffer

namespace Canvas

variable (completion : Completion) (inline : Bool) (c : Canvas)

/-- A canvas from which a suggestion was taken away, with a history put back. -/
def withdrawn (shown : Artifact × Canvas) (history : List Snapshot) : Canvas :=
  let r := (shown.1.remove shown.2).2
  { r with buffer := { r.buffer with history := history } }

theorem offset_le_length :
    Text.offsetAt c.buffer.eol.text c.buffer.text completion.position ≤ c.buffer.text.length :=
  Text.offsetAt_le_length ..

/-- A suggestion that was just shown is found. -/
theorem find?_display :
    ((c.display completion inline).1.find? (c.display completion inline).2).isSome = true := by
  cases inline with
  | false => simp [display, Artifact.find?]
  | true =>
    have hfound := Buffer.stretch?_spliceAside (offset_le_length completion c)
      completion.shownText.toList
    simp only [display, if_true, Artifact.find?, hfound, Option.map_some, Option.isSome_some]

/-- Taking a suggestion away at once leaves the text, the caret and the history from before it. -/
theorem withdrawn_display : withdrawn (c.display completion inline) c.buffer.history =
    ⟨c.buffer, if inline then c.panel else ""⟩ := by
  cases inline with
  | false => simp [withdrawn, display, Artifact.remove]
  | true =>
    have hi := offset_le_length completion c
    have hfound := Buffer.stretch?_spliceAside hi completion.shownText.toList
    have hback := Buffer.spliceAside_spliceAside hi completion.shownText.toList
    simp only [withdrawn, display, if_true, Artifact.remove, hfound, hback]

end Canvas

end GhostText
