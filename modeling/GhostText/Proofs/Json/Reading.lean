import GhostText.Json.Reader

/-!
# How a value is read

A text that is read as a value starts with a bracket, a quote or a scalar, and each of them is read
in its own way. Here the ways are told apart once, without the fuel that the reader goes by, and
what is known of all that is read follows by induction over them.
-/

namespace GhostText.Json

theorem ok_of_map {ε α β : Type} {x : Except ε α} {f : α → β} {b : β} (h : x.map f = .ok b) :
    ∃ a, x = .ok a ∧ f a = b := by
  cases x with
  | error e => contradiction
  | ok a => exact ⟨a, rfl, Except.ok.inj h⟩

/-! ## The ways of reading -/

mutual

/-- A value is read from the start of a text, and this is what is left. -/
inductive ReadsValue : List Char → Json → List Char → Prop where
  | text {cs rest : List Char} {s : String} (read : readText ('"' :: cs) cs = .ok (s, rest)) :
      ReadsValue ('"' :: cs) (.str s) rest
  | noItems {cs rest : List Char} (close : skipSpace cs = ']' :: rest) :
      ReadsValue ('[' :: cs) (.arr []) rest
  | items {cs rest : List Char} {vs : List Json} (read : ReadsItems (skipSpace cs) vs rest) :
      ReadsValue ('[' :: cs) (.arr vs) rest
  | noMembers {cs rest : List Char} (close : skipSpace cs = '}' :: rest) :
      ReadsValue ('{' :: cs) (.obj []) rest
  | members {cs rest : List Char} {fs : List (String × Json)}
      (read : ReadsMembers (skipSpace cs) fs rest) :
      ReadsValue ('{' :: cs) (.obj (Fields.ofPairs fs)) rest
  | scalar {cs rest : List Char} {v : Json} (read : readScalar cs = .ok (v, rest)) :
      ReadsValue cs v rest

/-- The items of an array that has some are read, with the closing bracket. -/
inductive ReadsItems : List Char → List Json → List Char → Prop where
  | last {cs behind rest : List Char} {v : Json} (item : ReadsValue cs v behind)
      (close : skipSpace behind = ']' :: rest) : ReadsItems cs [v] rest
  | more {cs behind tail rest : List Char} {v : Json} {vs : List Json}
      (item : ReadsValue cs v behind) (comma : skipSpace behind = ',' :: tail)
      (read : ReadsItems (skipSpace tail) vs rest) : ReadsItems cs (v :: vs) rest

/-- The members of an object that has some are read, with the closing brace. -/
inductive ReadsMembers : List Char → List (String × Json) → List Char → Prop where
  | last {cs named inner behind rest : List Char} {key : String} {v : Json}
      (name : readText ('"' :: cs) cs = .ok (key, named))
      (colon : skipSpace named = ':' :: inner) (value : ReadsValue (skipSpace inner) v behind)
      (close : skipSpace behind = '}' :: rest) : ReadsMembers ('"' :: cs) [(key, v)] rest
  | more {cs named inner behind tail rest : List Char} {key : String} {v : Json}
      {fs : List (String × Json)} (name : readText ('"' :: cs) cs = .ok (key, named))
      (colon : skipSpace named = ':' :: inner) (value : ReadsValue (skipSpace inner) v behind)
      (comma : skipSpace behind = ',' :: tail) (read : ReadsMembers (skipSpace tail) fs rest) :
      ReadsMembers ('"' :: cs) ((key, v) :: fs) rest

end

/-! ## The reader goes these ways -/

/-- With this fuel all that is read is read in one of these ways. -/
structure ReadsSo (fuel : Nat) : Prop where
  value : ∀ {cs r}, readValue fuel cs = .ok r → ReadsValue cs r.1 r.2
  items : ∀ {cs r}, readItems fuel cs = .ok r → ReadsItems cs r.1 r.2
  members : ∀ {cs r}, readMembers fuel cs = .ok r → ReadsMembers cs r.1 r.2

section ReadsSo

variable {fuel : Nat} {cs : List Char}

/-- With one more unit of fuel a value is read in one of the ways. -/
theorem ReadsSo.readValue (hr : ReadsSo fuel) {r : Json × List Char}
    (h : readValue (fuel + 1) cs = .ok r) : ReadsValue cs r.1 r.2 := by
  rw [readValue.eq_def] at h
  simp only at h
  split at h
  · obtain ⟨r', htext, rfl⟩ := ok_of_map h
    exact .text htext
  · split at h
    · next close =>
      obtain rfl := Except.ok.inj h
      exact .noItems close
    · obtain ⟨r', hitems, rfl⟩ := ok_of_map h
      exact .items (hr.items hitems)
  · split at h
    · next close =>
      obtain rfl := Except.ok.inj h
      exact .noMembers close
    · obtain ⟨r', hmembers, rfl⟩ := ok_of_map h
      exact .members (hr.members hmembers)
  · exact .scalar h

theorem ReadsSo.readItems (hr : ReadsSo fuel) {r : List Json × List Char}
    (h : readItems (fuel + 1) cs = .ok r) : ReadsItems cs r.1 r.2 := by
  rw [Json.readItems] at h
  split at h
  · contradiction
  next v behind hv =>
  split at h
  · next close =>
    obtain rfl := Except.ok.inj h
    exact .last (hr.value hv) close
  · next comma =>
    obtain ⟨r', hitems, rfl⟩ := ok_of_map h
    exact .more (hr.value hv) comma (hr.items hitems)
  · contradiction

theorem ReadsSo.readMembers (hr : ReadsSo fuel) {r : List (String × Json) × List Char}
    (h : readMembers (fuel + 1) cs = .ok r) : ReadsMembers cs r.1 r.2 := by
  rw [readMembers.eq_def] at h
  simp only at h
  split at h
  · split at h
    · contradiction
    next name =>
    split at h
    · next colon =>
      split at h
      · contradiction
      next hv =>
      split at h
      · next close =>
        obtain rfl := Except.ok.inj h
        exact .last name colon (hr.value hv) close
      · next comma =>
        obtain ⟨r', hmembers, rfl⟩ := ok_of_map h
        exact .more name colon (hr.value hv) comma (hr.members hmembers)
      · contradiction
    · contradiction
  · contradiction

/-- With any fuel the reader goes one of the ways, by induction on it. -/
theorem readsSo (fuel : Nat) : ReadsSo fuel := by
  induction fuel with
  | zero =>
    constructor
    · intro cs r h
      simp [Json.readValue] at h
    · intro cs r h
      simp [Json.readItems] at h
    · intro cs r h
      simp [Json.readMembers] at h
  | succ fuel ih => exact ⟨ih.readValue, ih.readItems, ih.readMembers⟩

end ReadsSo

/-- A text that is read holds one value and nothing else but space. -/
theorem readsValue_of_read {t : List Char} {v : Json} (h : read t = .ok v) :
    ∃ rest, ReadsValue (skipSpace t) v rest ∧ skipSpace rest = [] := by
  rw [read] at h
  split at h
  · contradiction
  split at h
  · contradiction
  next rest hv =>
  split at h
  · next hs =>
    obtain rfl := Except.ok.inj h
    exact ⟨rest, (readsSo _).value hv, hs⟩
  · contradiction

end GhostText.Json
