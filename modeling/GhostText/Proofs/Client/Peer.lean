import GhostText.Client.Dispatch
import Mathlib.Logic.Relation

/-!
# Messages of the peer

What the client keeps of the messages of its peer: a context for each of them, which requests are in
flight, and which of those are cancelled. Whatever is done in a run, at whatever depth, changes this
in a row of seven kinds of steps. A request that was cancelled is remembered as cancelled for as
long as it is in flight.
-/

namespace GhostText

/-! ## Identifiers -/

theorem Json.Size.same_comm (s t : Size) : s.same t = t.same s := by
  cases s <;> cases t <;> simp only [Size.same] <;> exact BEq.comm

/-- Two identifiers denote the same only if they are the same. -/
theorem Message.same_iff_of_isId {i j : Json} (hi : isId i) (hj : isId j) :
    i.same j = true ↔ i = j := by
  cases i <;> cases j <;> simp_all [isId, Json.isNull, Json.isInteger, Json.isText, Json.same,
    Json.size?, Json.Size.same]

/-- Identifiers may be compared from either side. -/
theorem Message.same_comm_of_isId {i : Json} (hi : isId i) (v : Json) : v.same i = i.same v := by
  cases i with
  | null => cases v <;> simp [Json.same, Json.size?]
  | str s => cases v <;> simp [Json.same, Json.size?, BEq.comm (b := s)]
  | int n =>
    cases v with
    | float x =>
      simp only [Json.same]
      cases (Json.float x).size? with
      | none => rfl
      | some t => exact Json.Size.same_comm ..
    | _ => simp [Json.same, Json.size?, Json.Size.same_comm]
  | _ => cases hi

/-- What has a size is compared by it. -/
theorem Json.same_of_size? {v : Json} {t : Size} (hv : v.size? = some t) (w : Json) :
    w.same v = w.size?.any fun s => s.same t := by
  cases hw : w.size? <;> cases w <;> cases v <;> simp_all [same, size?]

theorem Json.size?_of_same_int {n : Int} {v : Json} (h : (Json.int n).same v) :
    v.size? = some (.exact n) := by
  have hn : (Json.int n).size? = some (.exact n) := rfl
  rw [← Message.same_comm_of_isId (by rfl), same_of_size? hn] at h
  cases hv : v.size? with
  | none => simp [hv] at h
  | some t => cases t <;> simp_all [Size.same]

/-- Nothing tells two values apart that denote the same identifier. -/
theorem Message.same_congr_of_isId {id i j : Json} (hid : isId id) (hi : id.same i)
    (hj : id.same j) (v : Json) : v.same i = v.same j := by
  cases id with
  | null => cases i <;> cases j <;> simp_all [Json.same, Json.size?]
  | str s => cases i <;> cases j <;> simp_all [Json.same, Json.size?]
  | int n =>
    rw [Json.same_of_size? (Json.size?_of_same_int hi),
      Json.same_of_size? (Json.size?_of_same_int hj)]
  | _ => cases hid

namespace Client

variable {c c' c'' : Client} {n base : Nat} {id : Json}

/-! ## Contexts -/

/-- A request is answered. With that it is no longer in flight, and that it was cancelled is
forgotten. -/
def conclude (n : Nat) (id : Json) (c : Client) : Client :=
  ((c.updateContext n fun k => { k with answered := true }).consumeCancelled id).2

theorem context?_addContext (method : String) (id : Json) (isRequest : Bool) (c : Client)
    (n : Nat) : (c.addContext method id isRequest).2.context? n =
      if n = c.contexts.length then some ⟨method, id, isRequest, false, false⟩
      else c.context? n := by
  simp only [addContext, context?]
  split
  · next h => rw [h, List.getElem?_concat_length]
  · next h =>
    rcases Nat.lt_or_gt_of_ne h with hlt | hgt
    · rw [List.getElem?_append_left hlt]
    · rw [List.getElem?_eq_none (by simp; omega), List.getElem?_eq_none (by omega)]

theorem context?_updateContext (n : Nat) (f : Context → Context) (c : Client) (m : Nat) :
    (c.updateContext n f).context? m = if n = m then (c.context? m).map f else c.context? m := by
  simp only [updateContext, context?, List.getElem?_modify]
  split <;> simp

theorem eraseId_eq_self {ids : List Json} (h : contains ids id = false) : eraseId id ids = ids := by
  refine List.filter_eq_self.2 fun i hi => ?_
  simpa using List.any_eq_false.1 h i hi

/-- Consuming a mark tells whether there was one. -/
theorem fst_consumeCancelled (id : Json) (c : Client) :
    (c.consumeCancelled id).1 = c.isCancelled id := by
  unfold consumeCancelled
  dsimp only
  split <;> simp_all [isCancelled]

theorem consumeCancelled_eq (id : Json) (c : Client) : (c.consumeCancelled id).2 =
    { c with
      inFlight := eraseId id c.inFlight
      cancelled := if id.isNull then c.cancelled else eraseId id c.cancelled } := by
  unfold consumeCancelled isCancelled
  cases hn : id.isNull with
  | true => simp
  | false =>
    cases hc : contains c.cancelled id with
    | true => simp [hc]
    | false => simp [hc, eraseId_eq_self hc]

theorem lt_of_context? {k : Context} (h : c.context? n = some k) : n < c.contexts.length :=
  (List.getElem?_eq_some_iff.1 h).1

/-- Answering a message marks its own context and no other. -/
theorem context?_conclude (n : Nat) (id : Json) (c : Client) (m : Nat) :
    (c.conclude n id).context? m =
      if n = m then (c.context? m).map fun k => { k with answered := true } else c.context? m := by
  rw [conclude, consumeCancelled_eq]
  exact context?_updateContext ..

/-- What becomes of a context: only whether its message is answered and logged may change. -/
structure Lasts (k k' : Context) : Prop where
  method : k'.method = k.method
  id : k'.id = k.id
  isRequest : k'.isRequest = k.isRequest
  answered : k.answered = true → k'.answered = true

theorem Lasts.refl (k : Context) : Lasts k k := ⟨rfl, rfl, rfl, fun ha => ha⟩

theorem Lasts.trans {k k' k'' : Context} (h : Lasts k k') (h' : Lasts k' k'') : Lasts k k'' :=
  ⟨h'.method.trans h.method, h'.id.trans h.id, h'.isRequest.trans h.isRequest,
    fun ha => h'.answered (h.answered ha)⟩

theorem lasts_of_eq {k : Context} (hk : c.context? n = some k)
    (h : c'.context? n = c.context? n) : ∃ k', c'.context? n = some k' ∧ Lasts k k' :=
  ⟨k, h.trans hk, .refl k⟩

theorem lasts_conclude {k : Context} (hk : c.context? n = some k) (m : Nat) (id : Json) :
    ∃ k', (c.conclude m id).context? n = some k' ∧ Lasts k k' := by
  rw [context?_conclude, hk]
  split
  · exact ⟨_, rfl, rfl, rfl, rfl, fun _ => rfl⟩
  · exact ⟨k, rfl, .refl k⟩

theorem context?_of_markCancelled (h : c.markCancelled id = .ok c') :
    c' = { c with cancelled := c'.cancelled } ∧
      ∀ i ∈ c'.cancelled, i ∈ c.cancelled ∨ i = id ∧ contains c.inFlight id = true := by
  unfold markCancelled at h
  split at h
  · cases h
  · split at h
    · next hin =>
      obtain rfl := Except.ok.inj h
      refine ⟨rfl, fun i hi => ?_⟩
      simp only [insertId] at hi
      split at hi
      · exact .inl hi
      · rcases List.mem_append.1 hi with hi | hi
        · exact .inl hi
        · exact .inr ⟨List.mem_singleton.1 hi, hin⟩
    · obtain rfl := Except.ok.inj h
      exact ⟨rfl, fun i hi => .inl hi⟩

/-! ## Steps -/

inductive PeerStep (c : Client) : Client → Prop where
  /-- Whatever concerns no message of the peer. -/
  | aside {c' : Client} (contexts : c'.contexts = c.contexts) (inFlight : c'.inFlight = c.inFlight)
      (cancelled : c'.cancelled = c.cancelled) : PeerStep c c'
  | suppress (n : Nat) : PeerStep c (c.updateContext n fun k => { k with suppressed := true })
  | come (method : String) (id : Json) (isRequest : Bool) :
      PeerStep c (c.addContext method id isRequest).2
  /-- A request comes and is handed to a handler. -/
  | hand (method : String) (id : Json) :
      PeerStep c ((c.addContext method id true).2.openRequest id)
  | cancel {id : Json} {c' : Client} (marked : c.markCancelled id = .ok c') : PeerStep c c'
  | answer {n : Nat} {k : Context} (found : c.context? n = some k) (isRequest : k.isRequest = true)
      (unanswered : k.answered = false) : PeerStep c (c.conclude n k.id)
  | disconnect : PeerStep c c.disconnect

abbrev PeerSteps : Client → Client → Prop := Relation.ReflTransGen PeerStep

/-- A context keeps its method, its identifier and its kind, and an answer is final. -/
theorem PeerStep.lasts (h : PeerStep c c') {k : Context} (hk : c.context? n = some k) :
    ∃ k', c'.context? n = some k' ∧ Lasts k k' := by
  have hadd : ∀ method id isRequest,
      (c.addContext method id isRequest).2.context? n = c.context? n := by
    intro method id isRequest
    rw [context?_addContext, if_neg (Nat.ne_of_lt (lt_of_context? hk))]
  cases h with
  | aside contexts _ _ => exact lasts_of_eq hk (by rw [context?, contexts, context?])
  | suppress m =>
    rw [context?_updateContext, hk]
    split
    · exact ⟨_, rfl, rfl, rfl, rfl, fun ha => ha⟩
    · exact ⟨k, rfl, .refl k⟩
  | come _ _ _ => exact lasts_of_eq hk (hadd ..)
  | hand _ _ => exact lasts_of_eq hk (hadd ..)
  | cancel marked =>
    refine lasts_of_eq hk ?_
    rw [(context?_of_markCancelled marked).1]
    rfl
  | answer _ _ _ => exact lasts_conclude hk _ _
  | disconnect => exact lasts_of_eq hk rfl

theorem PeerSteps.lasts (h : PeerSteps c c') {k : Context} (hk : c.context? n = some k) :
    ∃ k', c'.context? n = some k' ∧ Lasts k k' := by
  induction h with
  | refl => exact ⟨k, hk, .refl k⟩
  | tail _ step ih =>
    obtain ⟨k', hk', hlasts⟩ := ih
    obtain ⟨k'', hk'', hlasts'⟩ := step.lasts hk'
    exact ⟨k'', hk'', hlasts.trans hlasts'⟩

/-! ## Cancelled requests -/

/-- A request has come under an identifier, and not before a certain message. -/
def RequestedFrom (base : Nat) (id : Json) (c : Client) : Prop :=
  ∃ n k, base ≤ n ∧ c.context? n = some k ∧ k.isRequest = true ∧ id.same k.id = true

theorem requestedFrom_iff : c.RequestedFrom base id ↔
    ((c.contexts.drop base).any fun k => k.isRequest && id.same k.id) = true := by
  simp only [RequestedFrom, context?, List.any_eq_true, Bool.and_eq_true]
  constructor
  · rintro ⟨n, k, hn, hk, h⟩
    refine ⟨k, List.mem_of_getElem? (i := n - base) ?_, h⟩
    rw [List.getElem?_drop, Nat.add_sub_cancel' hn, hk]
  · rintro ⟨k, hk, h⟩
    obtain ⟨i, hi⟩ := List.getElem?_of_mem hk
    exact ⟨base + i, k, Nat.le_add_right .., (List.getElem?_drop ..).symm.trans hi, h⟩

instance : Decidable (c.RequestedFrom base id) := decidable_of_iff _ requestedFrom_iff.symm

theorem RequestedFrom.steps (h : c.RequestedFrom base id) (hs : PeerSteps c c') :
    c'.RequestedFrom base id := by
  obtain ⟨n, k, hn, hk, hr, hid⟩ := h
  obtain ⟨k', hk', hlasts⟩ := hs.lasts hk
  exact ⟨n, k', hn, hk', hlasts.isRequest.trans hr, hlasts.id ▸ hid⟩

theorem contains_insertId {ids : List Json} (h : contains ids id = true) (i : Json) :
    contains (insertId i ids) id = true := by
  unfold insertId
  split
  · exact h
  · exact (List.any_append ..).trans (by rw [show ids.any id.same = true from h, Bool.true_or])

theorem contains_of_insertId {ids : List Json} {i : Json}
    (h : contains (insertId i ids) id = true) : contains ids id = true ∨ id.same i = true := by
  unfold insertId at h
  split at h
  · exact .inl h
  · simpa [contains, List.any_append] using h

/-- What is left after a mark is removed was there before and differs from it. -/
theorem contains_of_eraseId {ids : List Json} {i : Json}
    (h : contains (eraseId i ids) id = true) :
    ∃ j ∈ ids, i.same j = false ∧ id.same j = true := by
  obtain ⟨j, hj, hsame⟩ := List.any_eq_true.1 h
  obtain ⟨hmem, hne⟩ := List.mem_filter.1 hj
  exact ⟨j, hmem, by simpa using hne, hsame⟩

/-- What is forgotten as cancelled is forgotten as in flight. -/
theorem contains_eraseId (hid : Message.isId id) {inFlight cancelled : List Json} {i : Json}
    (hc : contains cancelled id = true) (hf : contains (eraseId i inFlight) id = true) :
    contains (eraseId i cancelled) id = true := by
  obtain ⟨j, -, hne, hj⟩ := contains_of_eraseId hf
  obtain ⟨j', hj', hsame⟩ := List.any_eq_true.1 hc
  refine List.any_eq_true.2 ⟨j', List.mem_filter.2 ⟨hj', ?_⟩, hsame⟩
  rw [Message.same_congr_of_isId hid hsame hj, hne]
  rfl

/-- A request is in flight only if it was so before, or has just come. -/
theorem PeerStep.inFlight (h : PeerStep c c') (hf : contains c'.inFlight id = true) :
    contains c.inFlight id = true ∨ c'.RequestedFrom c.contexts.length id := by
  cases h with
  | aside _ inFlight _ => exact .inl (inFlight ▸ hf)
  | suppress n => exact .inl hf
  | come _ _ _ => exact .inl hf
  | hand method i =>
    refine (contains_of_insertId hf).imp_right fun hsame => ?_
    have hlast := context?_addContext method i true c c.contexts.length
    rw [if_pos rfl] at hlast
    exact ⟨_, _, Nat.le_refl _, hlast, rfl, hsame⟩
  | cancel marked =>
    rw [(context?_of_markCancelled marked).1] at hf
    exact .inl hf
  | answer _ _ _ =>
    rw [conclude, consumeCancelled_eq] at hf
    obtain ⟨j, hj, -, hsame⟩ := contains_of_eraseId hf
    exact .inl (List.any_eq_true.2 ⟨j, hj, hsame⟩)
  | disconnect => cases hf

/-- A request that is in flight stays so until it is answered or the connection is closed. -/
theorem PeerStep.inFlight_stays (h : PeerStep c c') (hid : Message.isId id)
    (hf : contains c.inFlight id = true) (unanswered : ∀ m k, c'.context? m = some k →
      k.isRequest = true → id.same k.id = true → k.answered = false) :
    contains c'.inFlight id = true ∨ c' = c.disconnect := by
  cases h with
  | aside _ inFlight _ => exact .inl (inFlight ▸ hf)
  | suppress n => exact .inl hf
  | come _ _ _ => exact .inl hf
  | hand _ i => exact .inl (contains_insertId hf i)
  | cancel marked =>
    rw [(context?_of_markCancelled marked).1]
    exact .inl hf
  | @answer n k found isRequest _ =>
    refine .inl ?_
    obtain ⟨j, hj, hsame⟩ := List.any_eq_true.1 hf
    have hother : id.same k.id = false := by
      refine Bool.eq_false_iff.2 fun hk => ?_
      have hanswered := unanswered n { k with answered := true }
        (by rw [context?_conclude, if_pos rfl, found]; rfl) isRequest hk
      cases hanswered
    rw [conclude, consumeCancelled_eq]
    refine List.any_eq_true.2 ⟨j, List.mem_filter.2 ⟨hj, ?_⟩, hsame⟩
    have hself : id.same id = true := (Message.same_iff_of_isId hid hid).2 rfl
    rw [Message.same_congr_of_isId hid hsame hself, Message.same_comm_of_isId hid, hother]
    rfl
  | disconnect => exact .inr rfl

/-- A request that is cancelled stays so as long as it is in flight. -/
theorem PeerStep.cancelled (h : PeerStep c c') (hid : Message.isId id)
    (hc : contains c.cancelled id = true) (hf : contains c'.inFlight id = true) :
    contains c'.cancelled id = true := by
  cases h with
  | aside _ _ cancelled => exact cancelled ▸ hc
  | suppress n => exact hc
  | come _ _ _ => exact hc
  | hand _ _ => exact hc
  | cancel marked =>
    unfold markCancelled at marked
    split at marked
    · cases marked
    · split at marked <;> obtain rfl := Except.ok.inj marked
      · exact contains_insertId hc _
      · exact hc
  | answer _ _ _ =>
    rw [conclude, consumeCancelled_eq] at hf ⊢
    dsimp only
    split
    · exact hc
    · exact contains_eraseId hid hc hf
  | disconnect => cases hf

theorem PeerSteps.length_le (h : PeerSteps c c') : c.contexts.length ≤ c'.contexts.length := by
  refine Nat.le_of_not_lt fun hlt => ?_
  obtain ⟨k', hk', -⟩ := h.lasts (n := c'.contexts.length) (List.getElem?_eq_getElem hlt)
  exact Nat.lt_irrefl _ (lt_of_context? hk')

/-- On the way from one client to another the connection may have been closed. -/
def MayClose (c c' : Client) : Prop := ∃ c₁, PeerSteps c c₁ ∧ PeerSteps c₁.disconnect c'

/-- A request in flight stays so until it is answered, unless the connection may close. -/
theorem PeerSteps.inFlight_stays (h : PeerSteps c c') (hid : Message.isId id)
    (hf : contains c.inFlight id = true) (unanswered : ∀ m k, c'.context? m = some k →
      k.isRequest = true → id.same k.id = true → k.answered = false) :
    contains c'.inFlight id = true ∨ c.MayClose c' := by
  induction h with
  | refl => exact .inl hf
  | @tail c₁ c' steps step ih =>
    have hearlier : ∀ m k, c₁.context? m = some k → k.isRequest = true → id.same k.id = true →
        k.answered = false := by
      intro m k hk hr hsame
      obtain ⟨k', hk', hlasts⟩ := step.lasts hk
      have hopen := unanswered m k' hk' (hlasts.isRequest.trans hr) (hlasts.id ▸ hsame)
      exact Bool.eq_false_iff.2 fun ha => by simp [hlasts.answered ha] at hopen
    rcases ih hearlier with hf | ⟨c₀, hbefore, hafter⟩
    · refine (step.inFlight_stays hid hf unanswered).imp_right fun he => ⟨c₁, steps, ?_⟩
      rw [he]
    · exact .inr ⟨c₀, hbefore, hafter.tail step⟩

/-- What is in flight at last was so at first or has been asked since. -/
theorem PeerSteps.inFlight (h : PeerSteps c c') (hf : contains c'.inFlight id = true) :
    contains c.inFlight id = true ∨ c'.RequestedFrom c.contexts.length id := by
  induction h with
  | refl => exact .inl hf
  | tail steps step ih =>
    rcases step.inFlight hf with hf | ⟨n, k, hn, hk⟩
    · exact (ih hf).imp_right fun h => h.steps (.single step)
    · exact .inr ⟨n, k, Nat.le_trans (PeerSteps.length_le steps) hn, hk⟩

/-- What was in flight is forgotten with the connection, and it is not in flight again unless a
request has come since. -/
theorem MayClose.not_inFlight (h : c.MayClose c') (hnew : ¬ c'.RequestedFrom c.contexts.length id) :
    contains c'.inFlight id = false := by
  obtain ⟨c₁, hbefore, hafter⟩ := h
  refine Bool.eq_false_iff.2 fun hf => ?_
  rcases hafter.inFlight hf with hf | ⟨n, k, hn, hk⟩
  · cases hf
  · exact hnew ⟨n, k, Nat.le_trans hbefore.length_le hn, hk⟩

/-- What is cancelled if it is in flight is so after any row of steps, unless a request has come
under its identifier since. -/
theorem PeerSteps.cancelled (h : PeerSteps c c') (hid : Message.isId id)
    (hc : contains c.inFlight id = true → contains c.cancelled id = true)
    (hnew : ¬ c'.RequestedFrom c.contexts.length id) (hf : contains c'.inFlight id = true) :
    contains c'.cancelled id = true := by
  induction h with
  | refl => exact hc hf
  | tail steps step ih =>
    have hnew' := fun h => hnew (RequestedFrom.steps h (.single step))
    refine step.cancelled hid (ih hnew' ?_) hf
    refine (step.inFlight hf).resolve_right fun h => hnew ?_
    obtain ⟨n, k, hn, hk⟩ := h
    exact ⟨n, k, Nat.le_trans (PeerSteps.length_le steps) hn, hk⟩

end Client

end GhostText
