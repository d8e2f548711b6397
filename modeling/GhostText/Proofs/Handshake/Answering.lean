import GhostText.Proofs.Handshake.Resuming

/-!
# Messages that arrive beside a handshake and for it

Every message of the peer abides by a handshake: a response settles the call it belongs to, the
handshake's or another, a request or a notification runs a handler, and anything else concerns
nobody.
-/

namespace GhostText

variable {k : Conduct} {g : Greeting} {run : Runner}

/-- What does not wait cannot be taken from the table. -/
theorem World.dropPending_of_absent {w : World} {id : Nat} (h : w.client.Absent id) :
    (w.updateClient fun c => c.dropPending id) = w := by
  have hall : w.client.pending.filter (fun p => p.id != id) = w.client.pending :=
    List.filter_eq_self.2 fun p hp => by simpa using h.absent p hp
  rw [updateClient, Client.dropPending, hall]

namespace World

variable {w w' : World}

section Running

variable (hr : run.Abides k g) (hk : k.Civil g)

include hr hk

/-! ## Responses -/

/-- A call settles, whichever it is and whatever with. -/
theorem abides_settle (v : Verdict) (id : Nat) (w : World) :
    Abides k g w (settleBy run id v (w.updateClient fun c => c.dropPending id)) :=
  abides_settleBy hr hk (resumable hr hk v) id w

/-- The state of the account is told before its call settles, and the call waits no more
meanwhile. -/
theorem abides_settleAccount {p : PendingCall} (hp : p ∈ w.client.pending)
    (ht : p.treatment = .account) (status : Json) (v : Verdict) :
    Abides k g w (settleBy run p.id v
      (reportAccount run status (w.updateClient fun c => c.dropPending p.id))) := by
  refine .of_reached fun q hq => ?_
  have hdrop : Abides k g w (w.updateClient fun c => c.dropPending p.id) := by
    refine abides_dropPending fun call hc hg => ?_
    have hasIs := hq.client.asIs p hp call hc hg
    exact absurd (ht.symm.trans hasIs) nofun
  have habsent : (w.updateClient fun c => c.dropPending p.id).client.Absent p.id :=
    ⟨hq.client.ledger.id_lt_of_pending hp, fun _ => Client.ne_of_mem_dropPending⟩
  have htold := abides_changeStatus hr (.ofAccount status)
    (w.updateClient fun c => c.dropPending p.id)
  obtain ⟨q₁, hq₁, -⟩ := hdrop q hq
  obtain ⟨q₂, hq₂, -⟩ := htold q₁ hq₁.reached
  have hgone := hq₂.keeps.absent habsent
  unfold reportAccount
  generalize changeStatus run _ _ = w₁ at htold hgone ⊢
  have hsettled := abides_settle hr hk v p.id w₁
  rw [dropPending_of_absent hgone] at hsettled
  exact hdrop.trans (htold.trans hsettled)

/-- A response settles its own call and lets a handshake go on if that is one of its requests. -/
theorem abides_handleResponse (id result : Json) (error : Option ResponseError) (w : World) :
    Abides k g w (handleResponse run id result error w) := by
  cases hp : w.client.pendingFor? id with
  | none => exact (handleResponse_of_none run hp result error).aside.abides
  | some p =>
    obtain ⟨w₁, he, ⟨w₀, asides, rfl⟩ | ⟨ht, rfl⟩⟩ := handleResponse_of_some run hp result error
    · exact he ▸ asides.aside.abides.trans (abides_settle hr hk _ p.id w₀)
    · exact he ▸ abides_settleAccount hr hk (mem_of_pendingFor? hp) ht _ _

omit hk

/-! ## Requests and notifications of the peer -/

/-- A request of the peer is no business of a handshake, and neither is what its handler does. -/
theorem abides_handleRequest (n : Nat) (id : Json) (method : String) (params : Json) (w : World) :
    Abides k g w (handleRequest run n id method params w) := by
  obtain hreplies | ⟨kind, script, w₁, found, before, after⟩ :=
    handleRequest_cases run n id method params w
  · exact hreplies.aside.abides
  · refine .of_reached fun p hp => ?_
    have hran := hr (.script (some n) script) w₁
      (allows_request? (k := k.free) hp.client.handlers found)
    exact before.aside.abides.trans (hran.trans after.aside.abides)

theorem abides_handleNotification (n : Nat) (method : String) (params : Json) (w : World) :
    Abides k g w (handleNotification run n method params w) := by
  obtain hreplies | ⟨script, w₁, found, before, after⟩ | ⟨-, s, he⟩ :=
    handleNotification_cases run n method params w
  · exact hreplies.aside.abides
  · refine .of_reached fun p hp => ?_
    have hran := hr (.script (some n) script) w₁
      (allows_notification? (k := k.free) hp.client.handlers found)
    exact before.aside.abides.trans (hran.trans after.aside.abides)
  · rw [he]
    exact (abides_changeStatus hr s w).trans (aside_note rfl _).abides

/-! ## Messages -/

include hk

theorem abides_handleMessage (v : Json) (m : Message) (w : World) :
    Abides k g w (handleMessage run v w m) := by
  cases m with
  | response id result error =>
    exact (abides_handleResponse hr hk id result error w).trans
      (addsAsides_logTraffic ..).aside.abides
  | request id method params =>
    have hopen : Aside k g w (w.openContext method id true).2 := (replies_openContext ..).aside
    exact (hopen.abides.trans (abides_handleRequest hr w.client.contexts.length id method
      params _)).trans (replies_logIncoming ..).aside.abides
  | notification method params =>
    have hopen : Aside k g w (w.openContext method .null false).2 :=
      (replies_openContext ..).aside
    exact (hopen.abides.trans (abides_handleNotification hr w.client.contexts.length method
      params _)).trans (replies_logIncoming ..).aside.abides

/-- A message, whatever it is, abides by a handshake. -/
theorem abides_dispatch (b : Frame.Body) (w : World) : Abides k g w (dispatch run w b) := by
  cases b with
  | malformed raw e => exact (aside_clientLog ..).abides
  | value v =>
    unfold dispatch
    dsimp only
    split
    · exact (aside_clientLog ..).abides
    · exact abides_handleMessage hr hk v _ w

theorem abides_receive (bytes : List UInt8) (w : World) :
    Abides k g w (receive run bytes w) := by
  rw [receive_eq run]
  exact (aside_feed bytes w).abides.trans
    (Abides.foldl (fun w b _ => abides_dispatch hr hk b w) _)

end Running

end World

end GhostText
