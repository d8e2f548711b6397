import GhostText.Proofs.Run.Frame
import GhostText.Proofs.Run.Ledger

/-!
# What every step keeps

A sound world keeps to the conduct of its host and has its table of calls in order. Every step keeps
that. A call that has settled stays as it is, one that was given up stays given up, and one that was
taken from the table does not come back.
-/

namespace GhostText

variable {k : Regime}

/-! ## What becomes of a call -/

structure Call.Evolves (c c' : Call) : Prop where
  method : c'.method = c.method
  settled : c.status ≠ .pending → c'.status = c.status ∧ c'.result = c.result ∧ c'.error = c.error
  cancelled : c.cancelled = true → c'.cancelled = true
  /-- A call is made for a fetch or it is not. -/
  fetches : ∀ q ∈ c'.onResult ++ c'.onError, q.isOfFetch = true → q ∈ c.onResult ++ c.onError

theorem Call.Evolves.refl (c : Call) : c.Evolves c :=
  ⟨rfl, fun _ => ⟨rfl, rfl, rfl⟩, fun h => h, fun _ h _ => h⟩

theorem Call.Evolves.trans {c c' c'' : Call} (h : c.Evolves c') (h' : c'.Evolves c'') :
    c.Evolves c'' := by
  refine ⟨h'.method.trans h.method, fun hs => ?_, fun hc => h'.cancelled (h.cancelled hc),
    fun q hq hf => h.fetches q (h'.fetches q hq hf) hf⟩
  obtain ⟨h₁, h₂, h₃⟩ := h.settled hs
  obtain ⟨h₁', h₂', h₃'⟩ := h'.settled (h₁ ▸ hs)
  exact ⟨h₁'.trans h₁, h₂'.trans h₂, h₃'.trans h₃⟩

/-- A pending call may settle or be given up. -/
theorem Settling.evolves {f : Call → Call} (h : Settling f) {c : Call} (hp : c.status = .pending) :
    c.Evolves (f c) :=
  ⟨h.method c, fun hs => absurd hp hs, fun hc => (h.cancelled c).trans hc,
    fun q hq => by simp [h.onResult, h.onError] at hq⟩

/-- What a call becomes when one call changes. -/
theorem Client.becomes_updateCall {R : Call → Call → Prop} (hrefl : ∀ call, R call call)
    {c : Client} {id i : Nat} {f : Call → Call} {call : Call}
    (hid : ∀ call, (f call).id = call.id)
    (hf : i = id → R call (f call)) (hc : c.call? i = some call) :
    ∃ call', (c.updateCall id f).call? i = some call' ∧ R call call' := by
  rw [Client.call?_updateCall hid, hc]
  by_cases h : i = id
  · exact ⟨f call, by simp [h], hf h⟩
  · exact ⟨call, by simp [h], hrefl call⟩

/-- Every call lasts, and changes only by settling, by being given up, or by who waits for it. -/
theorem ClientStep.evolves {late : Prop} {c c' : Client} (h : ClientStep k late c c')
    (hl : c.Ledger) {id : Nat} {call : Call} (hc : c.call? id = some call) :
    ∃ call', c'.call? id = some call' ∧ call.Evolves call' := by
  cases h with
  | aside calls _ _ => exact ⟨call, by simpa only [Client.call?, calls] using hc, .refl call⟩
  | handlers _ => exact ⟨call, hc, .refl call⟩
  | make _ _ => exact ⟨call, by rw [Client.call?_addCall, hc]; rfl, .refl call⟩
  | @settle p f waiting settling =>
    refine Client.becomes_updateCall .refl settling.id (fun hid => ?_) hc
    obtain ⟨call', hc', hp, -⟩ := hl.waiting p waiting
    obtain rfl : call = call' := by simpa [hid, hc'] using hc.symm
    exact settling.evolves (by simp_all [Call.isPending])
  | take _ _ => exact ⟨call, hc, .refl call⟩
  | settleTaken found pending _ _ _ settling =>
    refine Client.becomes_updateCall .refl settling.id (fun hid => ?_) hc
    obtain rfl := Option.some.inj (found.symm.trans (hid ▸ hc))
    exact settling.evolves pending
  | await _ _ _ plain =>
    refine Client.becomes_updateCall .refl (fun _ => rfl)
      (fun _ => ⟨rfl, fun _ => ⟨rfl, rfl, rfl⟩, fun h => h, fun q hq hf => ?_⟩) hc
    simp only [Call.await, List.mem_append] at hq plain ⊢
    have hnew := plain q
    grind
  | cancel _ _ =>
    exact Client.becomes_updateCall .refl (fun _ => rfl)
      (fun _ => ⟨rfl, fun _ => ⟨rfl, rfl, rfl⟩, fun _ => rfl, by simp [Call.cancel]⟩) hc
  | disconnect => exact ⟨call, hc, .refl call⟩

/-- A call that was made and does not wait. -/
structure Client.Absent (c : Client) (id : Nat) : Prop where
  made : id < c.nextId
  absent : ∀ p ∈ c.pending, p.id ≠ id

/-- A call that has left the table does not come back. -/
theorem ClientStep.absent {late : Prop} {c c' : Client} (h : ClientStep k late c c') {id : Nat}
    (ha : c.Absent id) : c'.Absent id := by
  obtain ⟨hm, ha⟩ := ha
  cases h with
  | aside calls pending _ => exact ⟨by simpa only [Client.nextId, calls] using hm, by rwa [pending]⟩
  | handlers _ => exact ⟨hm, ha⟩
  | make _ _ =>
    simp only [Client.nextId] at hm
    refine ⟨by simp only [Client.nextId, Client.addCall, List.length_append]; omega, ?_⟩
    simp only [Client.addCall, List.mem_append, List.mem_singleton]
    rintro p (hp | rfl)
    · exact ha p hp
    · simp only [Call.start, Client.nextId]
      omega
  | settle _ _ =>
    refine ⟨by simpa using hm, fun p hp => ha p ?_⟩
    exact (List.mem_filter.1 hp).1
  | take _ _ => exact ⟨hm, fun p hp => ha p (List.mem_filter.1 hp).1⟩
  | settleTaken _ _ _ _ _ _ => exact ⟨by simpa using hm, ha⟩
  | await _ _ _ => exact ⟨by simpa using hm, ha⟩
  | cancel _ _ =>
    refine ⟨by simpa using hm, fun p hp => ha p ?_⟩
    exact (List.mem_filter.1 hp).1
  | disconnect => exact ⟨hm, by simp [Client.disconnect]⟩

/-! ## Soundness -/

theorem Conduct.awaitsAll_updateCall {c : Client} {id : Nat} {f : Call → Call}
    (hid : ∀ call, (f call).id = call.id)
    (hf : ∀ call, call.id = id → k.AwaitsAll id (call.onResult ++ call.onError) →
      k.AwaitsAll id ((f call).onResult ++ (f call).onError))
    (h : ∀ call ∈ c.calls, k.AwaitsAll call.id (call.onResult ++ call.onError)) :
    ∀ call ∈ (c.updateCall id f).calls, k.AwaitsAll call.id (call.onResult ++ call.onError) := by
  intro call hc
  simp only [Client.updateCall, List.mem_map] at hc
  obtain ⟨call, hc, rfl⟩ := hc
  split
  · next he =>
    rw [hid, he]
    exact hf call he (he ▸ h call hc)
  · exact h call hc

/-- Only what may wait for a call comes to wait for it. -/
theorem ClientStep.awaits {late : Prop} {c c' : Client} (h : ClientStep k late c c')
    (hb : ∀ call ∈ c.calls, k.AwaitsAll call.id (call.onResult ++ call.onError)) :
    ∀ call ∈ c'.calls, k.AwaitsAll call.id (call.onResult ++ call.onError) := by
  cases h with
  | aside calls _ _ => rwa [calls]
  | handlers _ => exact hb
  | make kind admits =>
    simp only [Client.addCall, List.mem_append, List.mem_singleton]
    rintro call (hc | rfl)
    · exact hb call hc
    · exact admits.awaits
  | settle _ settling =>
    refine Conduct.awaitsAll_updateCall settling.id (fun call _ _ => ?_) hb
    simp [settling.onResult, settling.onError, Conduct.AwaitsAll]
  | take _ _ => exact hb
  | settleTaken _ _ _ _ _ settling =>
    refine Conduct.awaitsAll_updateCall settling.id (fun call _ _ => ?_) hb
    simp [settling.onResult, settling.onError, Conduct.AwaitsAll]
  | await onResult onError awaits _ =>
    refine Conduct.awaitsAll_updateCall (fun _ => rfl) (fun call _ hc => ?_) hb
    simp only [Conduct.awaitsAll_append, Call.await] at hc awaits ⊢
    exact ⟨⟨hc.1, awaits.1⟩, hc.2, awaits.2⟩
  | cancel _ _ =>
    refine Conduct.awaitsAll_updateCall (fun _ => rfl) (fun call _ _ => ?_) hb
    simp [Call.cancel, Conduct.AwaitsAll]
  | disconnect => exact hb

theorem ClientStep.handles {late : Prop} {c c' : Client} (h : ClientStep k late c c')
    (hb : k.Handles c.handlers) : k.Handles c'.handlers := by
  cases h with
  | aside _ _ handlers => rwa [handlers]
  | handlers allowed => exact allowed
  | _ => exact hb

/-- A world that keeps to the conduct of its host and has its table of calls in order, where nothing
settles late but what may, and where no answer comes while a request is written unless answers are
read. -/
structure Regime.Sound (k : Regime) (w : World) : Prop where
  bound : k.Bound w
  ledger : w.client.Ledger
  held : ∀ id, w.client.Absent id ∨ k.holds id
  answers : w.transport.answers = [] ∨ k.reads

/-- What waits, and what is still to be made, may settle. -/
theorem Regime.Sound.holds {w : World} (h : k.Sound w) {id : Nat}
    (hid : id = w.client.nextId ∨ ∃ p ∈ w.client.pending, p.id = id) : k.holds id := by
  refine (h.held id).resolve_left fun ha => ?_
  rcases hid with rfl | ⟨p, hp, he⟩
  · exact absurd ha.made (Nat.lt_irrefl _)
  · exact ha.absent p hp he

/-- Where an answer is ready answers are read. -/
theorem Regime.Sound.reads {w : World} (h : k.Sound w) {payload answer : Json}
    (ha : w.transport.answerTo? payload = some answer) : k.reads := by
  refine h.answers.resolve_left fun hnone => ?_
  unfold Transport.answerTo? at ha
  split at ha
  · simp [hnone] at ha
  · cases ha

/-- What changes neither the client nor the host nor the transport leaves a world sound. -/
theorem Regime.Sound.congr {w w' : World} (h : k.Sound w) (hc : w'.client = w.client)
    (hh : w'.host = w.host) (ht : w'.transport.answers = w.transport.answers) : k.Sound w' :=
  ⟨⟨hc ▸ h.bound.calls, hc ▸ h.bound.handlers, hh ▸ h.bound.subscribers⟩, hc ▸ h.ledger,
    hc ▸ h.held, ht ▸ h.answers⟩

theorem TransportStep.answers_eq {t t' : Transport} (h : TransportStep k t t') :
    t'.answers = t.answers ∧ t'.refusesAnswered = t.refusesAnswered := by
  cases h <;> exact ⟨rfl, rfl⟩

/-- Every step keeps a world sound. -/
theorem Step.sound {w w' : World} (h : Step k w w') (hs : k.Sound w) : k.Sound w' := by
  cases h with
  | client step =>
    exact ⟨⟨step.awaits hs.bound.calls, step.handles hs.bound.handlers, hs.bound.subscribers⟩,
      step.ledger hs.ledger, fun id => (hs.held id).imp_left step.absent, hs.answers⟩
  | host allowed _ =>
    exact ⟨⟨hs.bound.calls, hs.bound.handlers, allowed⟩, hs.ledger, hs.held, hs.answers⟩
  | transport step => exact hs.congr rfl rfl step.answers_eq.1
  | session step =>
    exact hs.congr step.beside.client step.beside.host (by rw [step.beside.transport])
  | document step =>
    exact hs.congr step.informs.client step.informs.host (by rw [step.informs.transport])
  | _ => exact hs.congr rfl rfl rfl

/-- The client after a step that is none of its own is the same. -/
theorem Step.client_eq {w w' : World} (h : Step k w w') :
    w'.client = w.client ∨ ClientStep k w.transport.refusesAnswered w.client w'.client := by
  cases h with
  | client step => exact Or.inr step
  | session step => exact Or.inl step.beside.client
  | document step => exact Or.inl step.informs.client
  | _ => exact Or.inl rfl

namespace Steps

variable {w w' : World}

theorem sound (h : Steps k w w') (hs : k.Sound w) : k.Sound w' := by
  induction h with
  | refl => exact hs
  | tail _ step ih => exact step.sound ih

/-- What becomes of a call in a whole row of steps. -/
theorem evolves (h : Steps k w w') (hs : k.Sound w) {id : Nat} {call : Call}
    (hc : w.client.call? id = some call) :
    ∃ call', w'.client.call? id = some call' ∧ call.Evolves call' := by
  induction h with
  | refl => exact ⟨call, hc, .refl call⟩
  | tail steps step ih =>
    obtain ⟨call', hc', he⟩ := ih
    rcases step.client_eq with heq | hstep
    · exact ⟨call', heq ▸ hc', he⟩
    · obtain ⟨call'', hc'', he'⟩ := hstep.evolves (Steps.sound steps hs).ledger hc'
      exact ⟨call'', hc'', he.trans he'⟩

theorem absent (h : Steps k w w') {id : Nat} (ha : w.client.Absent id) : w'.client.Absent id := by
  induction h with
  | refl => exact ha
  | tail _ step ih =>
    rcases step.client_eq with heq | hstep
    · exact heq ▸ ih
    · exact hstep.absent ih

/-- A call that has settled stays settled. -/
theorem settled (h : Steps k w w') (hs : k.Sound w) {id : Nat} (hid : w.Settled id) :
    w'.Settled id := by
  obtain ⟨call, hc, hp⟩ := hid
  obtain ⟨call', hc', he⟩ := h.evolves hs hc
  exact ⟨call', hc', by rwa [(he.settled hp).1]⟩

end Steps

end GhostText
