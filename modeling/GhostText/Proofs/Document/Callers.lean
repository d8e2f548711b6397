import GhostText.Document.Unchecked
import GhostText.Proofs.Document.Positions
import Mathlib.Data.List.Forall2

/-!
# Positions and edits of well-behaved callers

Coordinates that are whole numbers are read without a fault, negative ones as zero. A change handed
over as it is, or written as a value and read again, is the same edit. Each edit handed over is
resolved to a splice on its own, and once all are resolved, making them is making their splices.
-/

namespace GhostText

variable {b : LineBreak}

/-- An offset is that of the line and then that of the column; behind the last line it is the
length. -/
theorem Text.offsetAt_eq (eol t : Text) (p : Position) : Text.offsetAt eol t p =
    match (Text.pieces eol t)[p.line]? with
    | none => t.length
    | some l =>
      Text.lineStart eol (Text.pieces eol t) p.line + Text.indexOfUnits l p.character := rfl

/-- A position with whole coordinates, whatever their sign, has an offset. -/
theorem UncheckedPosition.offset_int (t : Text) (line character : Int) :
    UncheckedPosition.offset b.text t ⟨.int line, .int character⟩ =
      .ok (Text.offsetAt b.text t ⟨line.toNat, character.toNat⟩) := by
  have heol : b.text.isEmpty = false := by cases b <;> rfl
  unfold UncheckedPosition.offset
  by_cases ht : t = []
  · subst ht
    simp
  · have ht' : t.isEmpty = false := by simpa using ht
    simp only [ht', heol, Bool.false_eq_true, if_false, Json.toNatural, Json.toInteger_int,
      Except.map, bind, Except.bind, pure, Except.pure, Text.offsetAt_eq]
    cases (Text.pieces b.text t)[line.toNat]? with
    | none => rfl
    | some l =>
      cases l with
      | nil => simp
      | cons c l => simp

/-- Coordinates that are natural numbers are read as they are. -/
theorem Position.offset_unchecked (t : Text) (p : Position) :
    p.unchecked.offset b.text t = .ok (Text.offsetAt b.text t p) :=
  UncheckedPosition.offset_int t p.line p.character

theorem Range.offsets_unchecked (t : Text) (r : Range) : r.unchecked.offsets b.text t =
    .ok (Text.ascending (Text.offsetAt b.text t r.start) (Text.offsetAt b.text t r.stop)) := by
  simp only [UncheckedRange.offsets, Range.unchecked, Position.offset_unchecked, bind, Except.bind,
    pure, Except.pure]

theorem Position.ofJson_toJson (p : Position) : Position.ofJson p.toJson = .ok p := by
  have hint : ∀ n : Nat, (Json.int n).integerOrZero = .ok (n : Int) := by
    intro n
    cases n <;> rfl
  have hline : p.toJson.fieldD "line" = .int p.line := rfl
  have hcharacter : p.toJson.fieldD "character" = .int p.character := rfl
  simp only [Position.ofJson, Position.coordinate, hline, hcharacter, hint, Except.map, bind,
    Except.bind, pure, Except.pure, Int.toNat_natCast]

/-- A range that is written as a value is read again, with its ends in order. -/
theorem Range.ofJson_toJson (r : Range) :
    Range.ofJson r.toJson = .ok (Range.ordered r.start r.stop) := by
  have hstart : r.toJson.fieldD "start" = r.start.toJson := rfl
  have hstop : r.toJson.fieldD "end" = r.stop.toJson := rfl
  simp only [Range.ofJson, hstart, hstop, Position.ofJson_toJson, bind, Except.bind, pure,
    Except.pure]

theorem Text.ascending_comm (m n : Nat) : Text.ascending m n = Text.ascending n m := by
  unfold Text.ascending
  split <;> split <;> simp_all <;> omega

/-- The two ends of a range may be handed over in either order. -/
theorem Range.offsets_ordered (t : Text) (r : Range) :
    (Range.ordered r.start r.stop).unchecked.offsets b.text t = r.unchecked.offsets b.text t := by
  unfold Range.ordered
  split
  · rw [Range.offsets_unchecked, Range.offsets_unchecked, Text.ascending_comm]
  · rfl

namespace EditItem

/-- An item that describes a change, the ends of its range in either order. -/
def Describes (i : EditItem) (c : TextChange) : Prop :=
  ∃ r, i.reading = .ok (some (r, c.text)) ∧
    ∀ (b : LineBreak) (t : Text), r.offsets b.text t = c.range.unchecked.offsets b.text t

def ofChange (c : TextChange) : EditItem := .change c.range.unchecked (.str (String.ofList c.text))

theorem describes_ofChange (c : TextChange) : (ofChange c).Describes c := by
  refine ⟨c.range.unchecked, ?_, fun _ _ => rfl⟩
  simp [ofChange, reading]

/-- A change written as a value. -/
theorem describes_toJson (c : TextChange) : (EditItem.value c.toJson).Describes c := by
  have hrange : c.toJson.field? "range" = some c.range.toJson := rfl
  have htext : c.toJson.field? "text" = some (.str (String.ofList c.text)) := rfl
  have hread := Range.ofJson_toJson c.range
  unfold Range.toJson at hrange hread
  refine ⟨(Range.ordered c.range.start c.range.stop).unchecked, ?_, ?_⟩
  · simp only [reading, hrange, htext, hread, bind, Except.bind, pure, Except.pure,
      Option.getD_some, Json.textOrEmpty_str, String.toList_ofList]
  · intro b t
    exact Range.offsets_ordered t c.range

/-! ## Splices -/

variable {t : Text}

/-- The splice of a text that an item asks for; a value without a range asks for none. -/
def resolve (eol t : Text) (i : EditItem) : Except Fault (Option Splice) := do
  match ← i.reading with
  | none => return none
  | some (range, text) =>
    let o ← range.offsets eol t
    return some ⟨o.1, o.2, text⟩

/-- The splice of an item whose range can be read. -/
def splice? (eol t : Text) (i : EditItem) : Option Splice := (i.resolve eol t).toOption.join

def splices (eol t : Text) (items : List EditItem) : List Splice := items.filterMap (splice? eol t)

/-- Whether the ranges of all items can be read. -/
def Resolved (eol t : Text) (items : List EditItem) : Prop :=
  ∀ i ∈ items, ∃ s, i.resolve eol t = .ok s

/-- An edit that describes a change is resolved to the splice of that change. -/
theorem Describes.resolve {i : EditItem} {c : TextChange} (h : i.Describes c) :
    i.resolve b.text t = .ok (some (c.splice b.text t)) := by
  obtain ⟨r, hr, ho⟩ := h
  have ho' := (ho b t).trans (Range.offsets_unchecked t c.range)
  simp only [EditItem.resolve, hr, ho', bind, Except.bind, pure, Except.pure, TextChange.splice]

/-- Items that describe changes are resolved to the splices of those changes. -/
theorem splices_of_describes {items : List EditItem} {cs : List TextChange}
    (h : List.Forall₂ Describes items cs) :
    Resolved b.text t items ∧ splices b.text t items = cs.map (TextChange.splice b.text t) := by
  induction h with
  | nil => exact ⟨by simp [Resolved], rfl⟩
  | @cons i c items cs hi _ ih =>
    have hsplice : i.splice? b.text t = some (c.splice b.text t) := by
      rw [splice?, hi.resolve]
      rfl
    refine ⟨List.forall_mem_cons.2 ⟨⟨_, hi.resolve⟩, ih.1⟩, ?_⟩
    rw [splices, List.filterMap_cons_some hsplice, List.map_cons, ← ih.2]
    rfl

/-- An item is resolved where it describes no edit, or one whose range has offsets. -/
theorem resolve_cases {i : EditItem} {s : Option Splice} (h : i.resolve b.text t = .ok s) :
    (i.reading = .ok none ∧ s = none) ∨
      ∃ e o, i.reading = .ok (some e) ∧ e.1.offsets b.text t = .ok o ∧
        s = some ⟨o.1, o.2, e.2⟩ := by
  obtain ⟨read, hr, h⟩ := exists_of_bind_eq_ok h
  cases read with
  | none => exact .inl ⟨hr, (Except.ok.inj h).symm⟩
  | some e =>
    obtain ⟨o, ho, h⟩ := exists_of_bind_eq_ok h
    exact .inr ⟨e, o, hr, ho, (Except.ok.inj h).symm⟩

theorem splice?_of_resolve {i : EditItem} {s : Option Splice} (h : i.resolve b.text t = .ok s) :
    i.splice? b.text t = s := by
  rw [splice?, h]
  rfl

/-- Items that can be read make their splices. -/
theorem applyAll_of_resolved {items : List EditItem} (h : Resolved b.text t items) :
    applyAll b.text t items = .ok (Splice.applyAll t (splices b.text t items)) := by
  have hread : ∃ read, items.mapM reading = .ok read ∧
      ((read.filterMap id).mapM fun e => do
        let o ← e.1.offsets b.text t
        return (⟨o.1, o.2, e.2⟩ : Splice)) = .ok (splices b.text t items) := by
    induction items with
    | nil => exact ⟨[], rfl, rfl⟩
    | cons i items ih =>
      obtain ⟨⟨s, hs⟩, hrest⟩ := List.forall_mem_cons.1 h
      obtain ⟨read, hread, hsplices⟩ := ih hrest
      have hi := splice?_of_resolve hs
      obtain ⟨hr, rfl⟩ | ⟨e, o, hr, ho, rfl⟩ := resolve_cases hs
      · refine ⟨none :: read, by rw [List.mapM_cons, hr, hread]; rfl, ?_⟩
        have hcons : splices b.text t (i :: items) = splices b.text t items :=
          List.filterMap_cons_none hi
        rw [List.filterMap_cons_none (f := id) rfl, hcons, hsplices]
      · refine ⟨some e :: read, by rw [List.mapM_cons, hr, hread]; rfl, ?_⟩
        have hcons : splices b.text t (i :: items) = ⟨o.1, o.2, e.2⟩ :: splices b.text t items :=
          List.filterMap_cons_some hi
        rw [List.filterMap_cons_some (f := id) rfl, List.mapM_cons, hcons, hsplices, ho]
        rfl
  obtain ⟨read, hread, hsplices⟩ := hread
  simp only [applyAll, hread, bind, Except.bind] at hsplices ⊢
  rw [hsplices]
  rfl

/-- Items that describe changes make those changes. -/
theorem applyAll_of_describes {items : List EditItem} {cs : List TextChange}
    (h : List.Forall₂ Describes items cs) :
    applyAll b.text t items = .ok (TextChange.applyAll b.text t cs) := by
  obtain ⟨hresolved, hsplices⟩ := splices_of_describes h
  rw [applyAll_of_resolved hresolved, hsplices]
  rfl

end EditItem

end GhostText
