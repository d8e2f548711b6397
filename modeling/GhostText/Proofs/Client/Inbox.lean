import GhostText.Proofs.Client.Peer

/-!
# The requests of the peer

Every message of the peer has a context, and a request is open from when it was handed to a handler
until it is answered. What the client remembers of the requests in flight and of the cancelled ones
is compared here with their contexts, step by step. No two requests are open under one identifier.
-/

namespace GhostText

/-! ## Open requests -/

namespace Client

/-- A request of the peer that was handed to a handler and is not answered yet. -/
def isOpen (c : Client) (n : Nat) : Bool :=
  (c.context? n).any fun k => k.isRequest && !k.answered && (c.handlers.request? k.method).isSome

/-- The open requests, without those that came before a certain message. -/
def openFrom (base : Nat) (c : Client) : List Nat :=
  (List.range c.contexts.length).filter fun n => decide (base ≤ n) && c.isOpen n

def idOf (c : Client) (n : Nat) : Json := (c.context? n).elim .null Context.id

def openIds (base : Nat) (c : Client) : List Json := (c.openFrom base).map c.idOf

variable {c c' : Client} {n m base : Nat} {id : Json}

/-- A request is open from when its handler is found until it is answered. -/
theorem isOpen_iff : c.isOpen n = true ↔ ∃ k, c.context? n = some k ∧ k.isRequest = true ∧
    k.answered = false ∧ (c.handlers.request? k.method).isSome = true := by
  simp [isOpen, Option.any_eq_true, and_assoc]

theorem idOf_eq {k : Context} (h : c.context? n = some k) : c.idOf n = k.id := by
  rw [idOf, h, Option.elim_some]

theorem lt_of_isOpen (h : c.isOpen n) : n < c.contexts.length := by
  obtain ⟨k, hk, -⟩ := isOpen_iff.1 h
  exact lt_of_context? hk

theorem mem_openFrom : n ∈ c.openFrom base ↔ base ≤ n ∧ c.isOpen n := by
  simp only [openFrom, List.mem_filter, List.mem_range, Bool.and_eq_true, decide_eq_true_eq]
  exact ⟨fun h => h.2, fun h => ⟨lt_of_isOpen h.2, h⟩⟩

/-! ## How the open requests change -/

/-- What is open depends on the contexts and the handlers only. -/
theorem openIds_congr (hl : c'.contexts.length = c.contexts.length)
    (hopen : ∀ n, c'.isOpen n = c.isOpen n) (hid : ∀ n, c'.idOf n = c.idOf n) (base : Nat) :
    c'.openIds base = c.openIds base := by
  simp only [openIds, openFrom, hl, hopen, funext hid]

/-- A message that comes is the last one, and it leaves the others as they are. -/
theorem openIds_addContext (method : String) (id : Json) (isRequest : Bool)
    (hbase : base ≤ c.contexts.length) : (c.addContext method id isRequest).2.openIds base =
      c.openIds base ++
        if isRequest && (c.handlers.request? method).isSome then [id] else [] := by
  have hcontext := context?_addContext method id isRequest c
  have hlength : (c.addContext method id isRequest).2.contexts.length = c.contexts.length + 1 := by
    simp [addContext]
  have hhandlers : (c.addContext method id isRequest).2.handlers = c.handlers := rfl
  generalize (c.addContext method id isRequest).2 = c' at hcontext hlength hhandlers ⊢
  have hopen : ∀ n, n < c.contexts.length → c'.isOpen n = c.isOpen n ∧ c'.idOf n = c.idOf n := by
    intro n hn
    have hn' : ¬ n = c.contexts.length := by omega
    simp only [isOpen, idOf, hcontext, if_neg hn', hhandlers, and_self]
  have hold : (List.range c.contexts.length).filter (fun n => decide (base ≤ n) && c'.isOpen n) =
      c.openFrom base :=
    List.filter_congr fun n hn => by rw [(hopen n (List.mem_range.1 hn)).1]
  rw [openIds, openFrom, hlength, List.range_succ, List.filter_append, hold, List.map_append]
  congr 1
  · exact List.map_congr_left fun n hn => (hopen n (lt_of_isOpen (mem_openFrom.1 hn).2)).2
  · have hlast : c'.isOpen c.contexts.length =
        (isRequest && (c.handlers.request? method).isSome) := by
      simp [isOpen, hcontext, hhandlers]
    rw [List.filter_cons, hlast, decide_eq_true hbase, Bool.true_and]
    split
    · simp [idOf, hcontext]
    · rfl

theorem idOf_conclude (n : Nat) (id : Json) (c : Client) (m : Nat) :
    (c.conclude n id).idOf m = c.idOf m := by
  rw [idOf, idOf, context?_conclude]
  split
  · cases c.context? m <;> rfl
  · rfl

/-- An answer closes its own request and no other. -/
theorem isOpen_conclude (n : Nat) (id : Json) (c : Client) (m : Nat) :
    (c.conclude n id).isOpen m = (c.isOpen m && m != n) := by
  have hhandlers : (c.conclude n id).handlers = c.handlers := by
    rw [conclude, consumeCancelled_eq]
    rfl
  rw [isOpen, isOpen, hhandlers, context?_conclude]
  by_cases h : n = m
  · subst h
    cases c.context? n <;> simp
  · simp [h, Ne.symm h]

/-- A request that is answered is not open any more, and the others stay so, if none of them has its
identifier. -/
theorem openIds_conclude (alone : ∀ m, c.isOpen m → id.same (c.idOf m) = decide (m = n))
    (base : Nat) : (c.conclude n id).openIds base = eraseId id (c.openIds base) := by
  have hlength : (c.conclude n id).contexts.length = c.contexts.length := by
    rw [conclude, consumeCancelled_eq]
    simp [updateContext]
  have hfrom : (c.conclude n id).openFrom base = (c.openFrom base).filter (· != n) := by
    simp only [openFrom, hlength, List.filter_filter, isOpen_conclude]
    exact List.filter_congr fun m _ => by
      rw [← Bool.and_assoc, Bool.and_comm]
  have herase : (c.openFrom base).filter (· != n) =
      (c.openFrom base).filter fun m => !id.same (c.idOf m) :=
    List.filter_congr fun m hm => by
      rw [alone m (mem_openFrom.1 hm).2]
      rfl
  rw [openIds, hfrom, herase, funext (idOf_conclude n id c), openIds, eraseId, List.filter_map]
  rfl

/-! ## Steps -/

/-- A step in what the client knows of the requests of the peer, and the answers that are given in
it, each with the number of its request. -/
inductive InboxStep (c : Client) : Client → List (Nat × Json) → Prop where
  /-- Whatever concerns no request. -/
  | aside {c' : Client} (contexts : c'.contexts = c.contexts) (inFlight : c'.inFlight = c.inFlight)
      (cancelled : c'.cancelled = c.cancelled) (handlers : c'.handlers = c.handlers) :
      InboxStep c c' []
  | suppress (n : Nat) : InboxStep c (c.updateContext n fun k => { k with suppressed := true }) []
  /-- A notification comes, or a request that nobody handles. -/
  | pass {method : String} {id : Json} {isRequest : Bool}
      (isId : isRequest = true → Message.isId id)
      (unhandled : isRequest = true → c.handlers.request? method = none) :
      InboxStep c (c.addContext method id isRequest).2 []
  /-- A request is handed to a handler. -/
  | hand {method : String} {id : Json} (isId : Message.isId id)
      (handled : (c.handlers.request? method).isSome = true)
      (unused : contains (c.openIds 0) id = false) :
      InboxStep c ((c.addContext method id true).2.openRequest id) []
  /-- A request that nobody handles is turned down at once. -/
  | refuse {method : String} {id : Json} (isId : Message.isId id)
      (unhandled : c.handlers.request? method = none) (reserved : isReserved method = true)
      (unused : contains (c.openIds 0) id = false) (result : Json) (error : Option ResponseError) :
      InboxStep c ((c.addContext method id true).2.conclude c.contexts.length id)
        [(c.contexts.length, (Message.response id result error).toJson)]
  /-- The peer cancels a request. -/
  | cancel {id : Json} {c' : Client} (proper : id.isNull = false)
      (marked : c.markCancelled id = .ok c') : InboxStep c c' []
  | answer {n : Nat} {k : Context} (found : c.context? n = some k) (isRequest : k.isRequest = true)
      (unanswered : k.answered = false) (handled : (c.handlers.request? k.method).isSome = true)
      (result : Json) (error : Option ResponseError) :
      InboxStep c (c.conclude n k.id) [(n, (Message.response k.id result error).toJson)]

theorem InboxStep.peer {told : List (Nat × Json)} (h : InboxStep c c' told) : PeerSteps c c' := by
  cases h with
  | aside contexts inFlight cancelled _ => exact .single (.aside contexts inFlight cancelled)
  | suppress n => exact .single (.suppress n)
  | pass _ _ => exact .single (.come ..)
  | hand _ _ _ => exact .single (.hand ..)
  | @refuse method id _ _ _ _ _ _ =>
    have hlast := context?_addContext method id true c c.contexts.length
    rw [if_pos rfl] at hlast
    exact .tail (.single (.come method id true)) (.answer hlast rfl rfl)
  | cancel _ marked => exact .single (.cancel marked)
  | answer found isRequest unanswered _ _ _ => exact .single (.answer found isRequest unanswered)

theorem InboxStep.handlers {told : List (Nat × Json)} (h : InboxStep c c' told) :
    c'.handlers = c.handlers := by
  cases h with
  | aside _ _ _ handlers => exact handlers
  | refuse _ _ _ _ _ _ =>
    rw [conclude, consumeCancelled_eq]
    rfl
  | cancel _ marked => rw [(context?_of_markCancelled marked).1]
  | answer _ _ _ _ _ _ =>
    rw [conclude, consumeCancelled_eq]
    rfl
  | _ => rfl

/-! ## What every step keeps -/

/-- The contexts agree with the answers that were given: each request has one at most, and under its
own identifier. -/
structure Roster (replies : List (Nat × Json)) (c : Client) : Prop where
  ids : ∀ n k, c.context? n = some k → k.isRequest = true → Message.isId k.id
  alone : ∀ m n, c.isOpen m → c.isOpen n → c.idOf m = c.idOf n → m = n
  nodup : (replies.map Prod.fst).Nodup
  answered : ∀ n, n ∈ replies.map Prod.fst ↔
    ∃ k, c.context? n = some k ∧ k.isRequest = true ∧ k.answered = true
  replies : ∀ r ∈ replies, ∃ k result error, c.context? r.1 = some k ∧
    r.2 = (Message.response k.id result error).toJson
  attended : ∀ n k, c.context? n = some k → k.isRequest = true → k.answered = true →
    (c.handlers.request? k.method).isSome = true ∨ isReserved k.method = true

/-- What is in flight is what is open, as far as it came behind a certain message, and only what is
in flight is remembered as cancelled. -/
structure Inbox (base : Nat) (replies : List (Nat × Json)) (c : Client) : Prop extends
    Roster replies c where
  base_le : base ≤ c.contexts.length
  inFlight : c.inFlight = c.openIds base
  cancelled : ∀ i ∈ c.cancelled, i.isNull = false ∧ contains c.inFlight i = true

variable {replies : List (Nat × Json)}

/-- An open request has an identifier that a peer can send. -/
theorem Roster.isId_of_isOpen (h : c.Roster replies) (hn : c.isOpen n) :
    Message.isId (c.idOf n) := by
  obtain ⟨k, hk, hrequest, -⟩ := isOpen_iff.1 hn
  rw [idOf_eq hk]
  exact h.ids n k hk hrequest

theorem Roster.isId_of_mem (h : c.Roster replies) {i : Json} (hi : i ∈ c.openIds base) :
    Message.isId i := by
  obtain ⟨n, hn, rfl⟩ := List.mem_map.1 hi
  exact h.isId_of_isOpen (mem_openFrom.1 hn).2

/-- No open request has an identifier that is not used. -/
theorem Roster.ne_of_unused (h : c.Roster replies) (hid : Message.isId id)
    (unused : contains (c.openIds 0) id = false) (hn : c.isOpen n) : c.idOf n ≠ id := by
  intro he
  have hmem : c.idOf n ∈ c.openIds 0 :=
    List.mem_map.2 ⟨n, mem_openFrom.2 ⟨Nat.zero_le n, hn⟩, rfl⟩
  have hdiffers := List.any_eq_false.1 unused _ hmem
  exact hdiffers ((Message.same_iff_of_isId hid (h.isId_of_mem hmem)).2 he.symm)

/-- What counts of a context: all but whether its message is logged. -/
def gist (k : Context) : Context := { k with suppressed := false }

/-- Where the contexts agree in what counts, the same requests are open. -/
theorem isOpen_congr (hh : c'.handlers = c.handlers)
    (hc : (c'.context? n).map gist = (c.context? n).map gist) :
    c'.isOpen n = c.isOpen n ∧ c'.idOf n = c.idOf n := by
  rw [isOpen, isOpen, idOf, idOf, hh]
  cases hk : c.context? n with
  | none =>
    rw [hk, Option.map_none, Option.map_eq_none_iff] at hc
    simp [hc]
  | some k =>
    rw [hk, Option.map_some] at hc
    obtain ⟨k', hk', hg⟩ := Option.map_eq_some_iff.1 hc
    simp only [gist, Context.mk.injEq, and_true] at hg
    simp [hk', hg]

/-- What is said of requests and answers does not hang on what is merely noted beside them. -/
theorem Roster.congr (h : c.Roster replies) (hh : c'.handlers = c.handlers)
    (hc : ∀ n, (c'.context? n).map gist = (c.context? n).map gist) : c'.Roster replies := by
  have hback : ∀ n k', c'.context? n = some k' → ∃ k, c.context? n = some k ∧
      k'.method = k.method ∧ k'.id = k.id ∧ k'.isRequest = k.isRequest ∧
      k'.answered = k.answered := by
    intro n k' hk'
    have hn := hc n
    rw [hk', Option.map_some] at hn
    obtain ⟨k, hk, hg⟩ := Option.map_eq_some_iff.1 hn.symm
    simp only [gist, Context.mk.injEq, and_true] at hg
    exact ⟨k, hk, hg.1.symm, hg.2.1.symm, hg.2.2.1.symm, hg.2.2.2.symm⟩
  have hforth : ∀ n k, c.context? n = some k → ∃ k', c'.context? n = some k' ∧
      k'.id = k.id ∧ k'.isRequest = k.isRequest ∧ k'.answered = k.answered := by
    intro n k hk
    have hn := hc n
    rw [hk, Option.map_some] at hn
    obtain ⟨k', hk', hg⟩ := Option.map_eq_some_iff.1 hn
    simp only [gist, Context.mk.injEq, and_true] at hg
    exact ⟨k', hk', hg.2.1, hg.2.2.1, hg.2.2.2⟩
  refine ⟨fun n k' hk' hr => ?_, fun m n hm hn he => ?_, h.nodup, fun n => ?_, fun r hr => ?_,
    fun n k' hk' hr ha => ?_⟩
  · obtain ⟨k, hk, -, hid, hrequest, -⟩ := hback n k' hk'
    exact hid ▸ h.ids n k hk (hrequest ▸ hr)
  · rw [(isOpen_congr hh (hc m)).1] at hm
    rw [(isOpen_congr hh (hc n)).1] at hn
    rw [(isOpen_congr hh (hc m)).2, (isOpen_congr hh (hc n)).2] at he
    exact h.alone m n hm hn he
  · rw [h.answered]
    constructor
    · rintro ⟨k, hk, hr, ha⟩
      obtain ⟨k', hk', -, hrequest, hanswered⟩ := hforth n k hk
      exact ⟨k', hk', hrequest.trans hr, hanswered.trans ha⟩
    · rintro ⟨k', hk', hr, ha⟩
      obtain ⟨k, hk, -, -, hrequest, hanswered⟩ := hback n k' hk'
      exact ⟨k, hk, hrequest ▸ hr, hanswered ▸ ha⟩
  · obtain ⟨k, result, error, hk, hp⟩ := h.replies r hr
    obtain ⟨k', hk', hid, -⟩ := hforth _ k hk
    exact ⟨k', result, error, hk', hid ▸ hp⟩
  · obtain ⟨k, hk, hmethod, -, hrequest, hanswered⟩ := hback n k' hk'
    rw [hh, hmethod]
    exact h.attended n k hk (hrequest ▸ hr) (hanswered ▸ ha)

/-- What is open once a message has come. -/
theorem isOpen_addContext (method : String) (id : Json) (isRequest : Bool) (c : Client) (n : Nat) :
    (c.addContext method id isRequest).2.isOpen n =
      if n = c.contexts.length then isRequest && (c.handlers.request? method).isSome
      else c.isOpen n := by
  have hhandlers : (c.addContext method id isRequest).2.handlers = c.handlers := rfl
  rw [isOpen, hhandlers, context?_addContext]
  split
  · simp
  · rfl

theorem idOf_addContext (method : String) (id : Json) (isRequest : Bool) (c : Client) (n : Nat) :
    (c.addContext method id isRequest).2.idOf n =
      if n = c.contexts.length then id else c.idOf n := by
  rw [idOf, context?_addContext]
  split <;> rfl

/-- A message comes. If it is to be handled no open request has its identifier. -/
theorem Roster.addContext (h : c.Roster replies) {method : String} {isRequest : Bool}
    (hid : isRequest = true → Message.isId id)
    (unused : isRequest = true → (c.handlers.request? method).isSome = true →
      contains (c.openIds 0) id = false) :
    (c.addContext method id isRequest).2.Roster replies := by
  have hcontext := context?_addContext method id isRequest c
  have hold : ∀ {n k}, c.context? n = some k →
      (c.addContext method id isRequest).2.context? n = some k := fun {n k} hk => by
    rw [hcontext, if_neg (Nat.ne_of_lt (lt_of_context? hk)), hk]
  have hnew : ∀ n k, (c.addContext method id isRequest).2.context? n = some k →
      k = ⟨method, id, isRequest, false, false⟩ ∨ c.context? n = some k := by
    intro n k hk
    rw [hcontext] at hk
    split at hk
    · exact .inl (Option.some.inj hk).symm
    · exact .inr hk
  have hfresh : ∀ n, c.isOpen n → isRequest = true → (c.handlers.request? method).isSome = true →
      c.idOf n ≠ id := fun n hn hr hh => h.ne_of_unused (hid hr) (unused hr hh) hn
  refine ⟨fun n k hk hr => ?_, fun m n hm hn he => ?_, h.nodup, fun n => ?_, fun r hr => ?_,
    fun n k hk hr ha => ?_⟩
  · rcases hnew n k hk with rfl | hk
    · exact hid hr
    · exact h.ids n k hk hr
  · rw [isOpen_addContext] at hm hn
    rw [idOf_addContext, idOf_addContext] at he
    by_cases hml : m = c.contexts.length <;> by_cases hnl : n = c.contexts.length
    · rw [hml, hnl]
    · rw [if_pos hml, Bool.and_eq_true] at hm
      rw [if_neg hnl] at hn
      rw [if_pos hml, if_neg hnl] at he
      exact absurd he.symm (hfresh n hn hm.1 hm.2)
    · rw [if_neg hml] at hm
      rw [if_pos hnl, Bool.and_eq_true] at hn
      rw [if_neg hml, if_pos hnl] at he
      exact absurd he (hfresh m hm hn.1 hn.2)
    · rw [if_neg hml] at hm he
      rw [if_neg hnl] at hn he
      exact h.alone m n hm hn he
  · rw [h.answered]
    constructor
    · rintro ⟨k, hk, hr, ha⟩
      exact ⟨k, hold hk, hr, ha⟩
    · rintro ⟨k, hk, hr, ha⟩
      rcases hnew n k hk with rfl | hk
      · cases ha
      · exact ⟨k, hk, hr, ha⟩
  · obtain ⟨k, result, error, hk, hp⟩ := h.replies r hr
    exact ⟨k, result, error, hold hk, hp⟩
  · rcases hnew n k hk with rfl | hk
    · cases ha
    · exact h.attended n k hk hr ha

/-- A request is answered. -/
theorem Roster.conclude (h : c.Roster replies) {k : Context} (found : c.context? n = some k)
    (isRequest : k.isRequest = true) (unanswered : k.answered = false)
    (attended : (c.handlers.request? k.method).isSome = true ∨ isReserved k.method = true)
    (result : Json) (error : Option ResponseError) :
    (c.conclude n k.id).Roster
      (replies ++ [(n, (Message.response k.id result error).toJson)]) := by
  have hhandlers : (c.conclude n k.id).handlers = c.handlers := by
    rw [Client.conclude, consumeCancelled_eq]
    rfl
  have hcontext := context?_conclude n k.id c
  have hself : (c.conclude n k.id).context? n = some { k with answered := true } := by
    rw [hcontext, if_pos rfl, found, Option.map_some]
  have hother : ∀ {m}, n ≠ m → (c.conclude n k.id).context? m = c.context? m := fun {m} hm => by
    rw [hcontext, if_neg hm]
  have hunanswered : n ∉ replies.map Prod.fst := by
    rw [h.answered]
    rintro ⟨k', hk', -, ha⟩
    obtain rfl := Option.some.inj (found.symm.trans hk')
    simp [unanswered] at ha
  refine ⟨fun m k' hk' hr => ?_, fun l m hl hm he => ?_, ?_, fun m => ?_, fun r hr => ?_,
    fun m k' hk' hr ha => ?_⟩
  · by_cases hm : n = m
    · subst hm
      obtain rfl := Option.some.inj (hself.symm.trans hk')
      exact h.ids n k found isRequest
    · exact h.ids m k' ((hother hm).symm.trans hk') hr
  · rw [isOpen_conclude, Bool.and_eq_true] at hl hm
    rw [idOf_conclude, idOf_conclude] at he
    exact h.alone l m hl.1 hm.1 he
  · rw [List.map_append, List.nodup_append]
    refine ⟨h.nodup, by simp, fun a ha b hb => ?_⟩
    obtain rfl : b = n := by simpa using hb
    rintro rfl
    exact hunanswered ha
  · rw [List.map_append, List.mem_append, h.answered]
    by_cases hm : n = m
    · subst hm
      simp [hself, isRequest]
    · simp [hother hm, Ne.symm hm]
  · rcases List.mem_append.1 hr with hr | hr
    · obtain ⟨k', result', error', hk', hp⟩ := h.replies r hr
      obtain ⟨k'', hk'', hlasts⟩ := lasts_conclude hk' n k.id
      exact ⟨k'', result', error', hk'', hlasts.id ▸ hp⟩
    · obtain rfl := List.mem_singleton.1 hr
      exact ⟨_, result, error, hself, rfl⟩
  · rw [hhandlers]
    by_cases hm : n = m
    · subst hm
      obtain rfl := Option.some.inj (hself.symm.trans hk')
      exact attended
    · exact h.attended m k' ((hother hm).symm.trans hk') hr ha

/-- Of what is forgotten as in flight nothing is remembered as cancelled. -/
theorem cancelled_eraseId {inFlight cancelled : List Json} (hid : Message.isId id)
    (hids : ∀ j ∈ inFlight, Message.isId j)
    (h : ∀ i ∈ cancelled, i.isNull = false ∧ contains inFlight i = true) :
    ∀ i ∈ (if id.isNull then cancelled else eraseId id cancelled),
      i.isNull = false ∧ contains (eraseId id inFlight) i = true := by
  intro i hi
  have hmem : i ∈ cancelled ∧ id.same i = false := by
    split at hi
    · next hnull =>
      refine ⟨hi, ?_⟩
      have hproper := (h i hi).1
      cases id with
      | null =>
        cases i with
        | null => cases hproper
        | _ => simp [Json.same, Json.size?]
      | _ => cases hnull
    · simpa [eraseId] using hi
  obtain ⟨hi, hdiffers⟩ := hmem
  obtain ⟨hproper, hin⟩ := h i hi
  refine ⟨hproper, ?_⟩
  obtain ⟨j, hj, hsame⟩ := List.any_eq_true.1 hin
  refine List.any_eq_true.2 ⟨j, List.mem_filter.2 ⟨hj, ?_⟩, hsame⟩
  cases hboth : id.same j with
  | false => rfl
  | true =>
    -- the two are one identifier then, and what denotes the same as it was forgotten
    obtain rfl := (Message.same_iff_of_isId hid (hids j hj)).1 hboth
    rw [Message.same_comm_of_isId hid, hdiffers] at hsame
    cases hsame

/-- Where the contexts agree in what counts, the inbox stays. -/
theorem Inbox.congr (h : c.Inbox base replies)
    (hc : ∀ n, (c'.context? n).map gist = (c.context? n).map gist)
    (hh : c'.handlers = c.handlers) (hl : c'.contexts.length = c.contexts.length)
    (hf : c'.inFlight = c.inFlight)
    (hx : ∀ i ∈ c'.cancelled, i ∈ c.cancelled ∨ i.isNull = false ∧ contains c.inFlight i = true) :
    c'.Inbox base replies := by
  refine { h.toRoster.congr hh hc with base_le := hl ▸ h.base_le, inFlight := ?_, cancelled := ?_ }
  · rw [hf, h.inFlight, openIds_congr hl (fun n => (isOpen_congr hh (hc n)).1)
      fun n => (isOpen_congr hh (hc n)).2]
  · rw [hf]
    exact fun i hi => (hx i hi).elim (h.cancelled i) fun hi => hi

/-- A request is answered, and nothing else that is open has its identifier. -/
theorem Inbox.conclude (h : c.Inbox base replies) {told : List (Nat × Json)}
    (hid : Message.isId id) (roster : (c.conclude n id).Roster told)
    (alone : ∀ m, c.isOpen m → id.same (c.idOf m) = decide (m = n)) :
    (c.conclude n id).Inbox base told := by
  have hlength : (c.conclude n id).contexts.length = c.contexts.length := by
    rw [Client.conclude, consumeCancelled_eq]
    simp [updateContext]
  have hinFlight : (c.conclude n id).inFlight = eraseId id c.inFlight := by
    rw [Client.conclude, consumeCancelled_eq]
    rfl
  have hcancelled : (c.conclude n id).cancelled =
      if id.isNull then c.cancelled else eraseId id c.cancelled := by
    rw [Client.conclude, consumeCancelled_eq]
    rfl
  refine { roster with base_le := hlength ▸ h.base_le, inFlight := ?_, cancelled := ?_ }
  · rw [hinFlight, openIds_conclude alone, h.inFlight]
  · rw [hinFlight, hcancelled]
    exact cancelled_eraseId hid (fun j hj => h.isId_of_mem (h.inFlight ▸ hj)) h.cancelled

/-- A message comes that is handed to nobody. -/
theorem Inbox.pass (h : c.Inbox base replies) {method : String} {isRequest : Bool}
    (hid : isRequest = true → Message.isId id)
    (unhandled : isRequest = true → c.handlers.request? method = none) :
    (c.addContext method id isRequest).2.Inbox base replies := by
  have hnone : (isRequest && (c.handlers.request? method).isSome) = false := by
    cases isRequest with
    | false => rfl
    | true => simp [unhandled rfl]
  refine { h.toRoster.addContext hid fun hr hh => ?_ with
    base_le := ?_, inFlight := ?_, cancelled := h.cancelled }
  · simp [unhandled hr] at hh
  · exact Nat.le_trans h.base_le (by simp [Client.addContext])
  · rw [openIds_addContext method id isRequest h.base_le, hnone, if_neg Bool.false_ne_true,
      List.append_nil]
    exact h.inFlight

/-- A message comes that is handed to a handler. -/
theorem Inbox.hand (h : c.Inbox base replies) {method : String} (hid : Message.isId id)
    (handled : (c.handlers.request? method).isSome = true)
    (unused : contains (c.openIds 0) id = false) :
    ((c.addContext method id true).2.openRequest id).Inbox base replies := by
  have hroster : (c.addContext method id true).2.Roster replies :=
    h.toRoster.addContext (fun _ => hid) fun _ _ => unused
  have hfresh : contains c.inFlight id = false := by
    rw [h.inFlight]
    refine List.any_eq_false.2 fun i hi => ?_
    obtain ⟨n, hn, rfl⟩ := List.mem_map.1 hi
    have hmem := mem_openFrom.2 ⟨Nat.zero_le n, (mem_openFrom.1 hn).2⟩
    exact List.any_eq_false.1 unused _ (List.mem_map.2 ⟨n, hmem, rfl⟩)
  have hinFlight : ((c.addContext method id true).2.openRequest id).inFlight =
      c.inFlight ++ [id] := by
    change insertId id c.inFlight = _
    rw [insertId, hfresh, if_neg Bool.false_ne_true]
  refine { hroster.congr rfl fun _ => rfl with base_le := ?_, inFlight := ?_, cancelled := ?_ }
  · exact Nat.le_trans h.base_le (by simp [openRequest, Client.addContext])
  · have hopen := openIds_addContext method id true h.base_le
    rw [handled, Bool.and_self, if_pos rfl] at hopen
    rw [hinFlight, h.inFlight]
    exact hopen.symm
  · intro i hi
    obtain ⟨hproper, hin⟩ := h.cancelled i hi
    rw [hinFlight, contains, List.any_append, show c.inFlight.any i.same = true from hin]
    exact ⟨hproper, rfl⟩

/-- What is in flight and what is cancelled agrees with the contexts after every step, if it did so
before. -/
theorem Inbox.step {told : List (Nat × Json)} (hs : InboxStep c c' told)
    (h : c.Inbox base replies) : c'.Inbox base (replies ++ told) := by
  cases hs with
  | aside contexts inFlight cancelled handlers =>
    rw [List.append_nil]
    refine h.congr (fun n => ?_) handlers (by rw [contexts]) inFlight fun i hi => .inl ?_
    · rw [context?, contexts, context?]
    · rwa [← cancelled]
  | suppress n =>
    rw [List.append_nil]
    refine h.congr (fun m => ?_) rfl (by simp [updateContext]) rfl fun i hi => .inl hi
    rw [context?_updateContext]
    split
    · cases c.context? m <;> rfl
    · rfl
  | pass hid unhandled =>
    rw [List.append_nil]
    exact h.pass hid unhandled
  | @hand method id hid handled unused =>
    rw [List.append_nil]
    exact h.hand hid handled unused
  | @refuse method id hid unhandled reserved unused result error =>
    have hpassed : (c.addContext method id true).2.Inbox base replies :=
      h.pass (fun _ => hid) fun _ => unhandled
    have hself : (c.addContext method id true).2.context? c.contexts.length =
        some ⟨method, id, true, false, false⟩ := by rw [context?_addContext, if_pos rfl]
    refine hpassed.conclude hid (hpassed.toRoster.conclude hself rfl rfl (.inr reserved) ..)
      fun m hm => ?_
    rw [isOpen_addContext] at hm
    rw [idOf_addContext]
    split at hm
    · simp [unhandled] at hm
    · next hne =>
      rw [if_neg hne, decide_eq_false hne, Bool.eq_false_iff]
      intro hsame
      have hne := h.toRoster.ne_of_unused hid unused hm
      exact hne ((Message.same_iff_of_isId hid (h.isId_of_isOpen hm)).1 hsame).symm
  | @cancel id c' proper marked =>
    obtain ⟨heq, hcancelled⟩ := context?_of_markCancelled marked
    rw [List.append_nil, heq]
    refine h.congr (fun _ => rfl) rfl rfl rfl fun i hi => (hcancelled i hi).imp_right ?_
    rintro ⟨rfl, hin⟩
    exact ⟨proper, hin⟩
  | @answer n k found isRequest unanswered handled result error =>
    have hself : c.isOpen n := isOpen_iff.2 ⟨k, found, isRequest, unanswered, handled⟩
    have hid := h.ids n k found isRequest
    refine h.conclude hid (h.toRoster.conclude found isRequest unanswered (.inl handled) ..)
      fun m hm => ?_
    rw [← idOf_eq found] at hid ⊢
    rw [Bool.eq_iff_iff, Message.same_iff_of_isId hid (h.isId_of_isOpen hm), decide_eq_true_iff]
    exact ⟨fun he => h.alone m n hm hself he.symm, fun he => he ▸ rfl⟩

/-- Once the connection is closed nothing is in flight, and what came before does not count. -/
theorem Inbox.disconnect (h : c.Inbox base replies) :
    c.disconnect.Inbox c.contexts.length replies := by
  have hopen : c.disconnect.openFrom c.contexts.length = [] :=
    List.filter_eq_nil_iff.2 fun n hn => by
      have hlt : n < c.contexts.length := List.mem_range.1 hn
      simp [Nat.not_le.2 hlt]
  refine { h.toRoster.congr rfl fun _ => rfl with
    base_le := Nat.le_refl _, inFlight := ?_, cancelled := ?_ }
  · rw [openIds, hopen, List.map_nil]
    rfl
  · simp [Client.disconnect]

/-! ## Rows of steps -/

inductive InboxSteps (c : Client) : Client → List (Nat × Json) → Prop where
  | refl : InboxSteps c c []
  | tail {c' c'' : Client} {told more : List (Nat × Json)} (steps : InboxSteps c c' told)
      (step : InboxStep c' c'' more) : InboxSteps c c'' (told ++ more)

variable {c'' : Client} {told more : List (Nat × Json)}

theorem InboxStep.single (h : InboxStep c c' told) : InboxSteps c c' told := .tail .refl h

theorem InboxSteps.trans (h : InboxSteps c c' told) (h' : InboxSteps c' c'' more) :
    InboxSteps c c'' (told ++ more) := by
  induction h' with
  | refl => rwa [List.append_nil]
  | tail _ step ih =>
    rw [← List.append_assoc]
    exact .tail ih step

theorem InboxSteps.peer (h : InboxSteps c c' told) : PeerSteps c c' := by
  induction h with
  | refl => exact .refl
  | tail _ step ih => exact ih.trans step.peer

theorem InboxSteps.lasts (h : InboxSteps c c' told) {k : Context} (hk : c.context? n = some k) :
    ∃ k', c'.context? n = some k' ∧ Lasts k k' :=
  h.peer.lasts hk

theorem InboxSteps.handlers (h : InboxSteps c c' told) : c'.handlers = c.handlers := by
  induction h with
  | refl => rfl
  | tail _ step ih => exact step.handlers.trans ih

/-- On a row of steps what the client remembers of requests agrees with their contexts
throughout. -/
theorem InboxSteps.inbox (hs : InboxSteps c c' told) (h : c.Inbox base replies) :
    c'.Inbox base (replies ++ told) := by
  induction hs with
  | refl => rwa [List.append_nil]
  | tail _ step ih =>
    rw [← List.append_assoc]
    exact ih.step step

end Client

end GhostText
