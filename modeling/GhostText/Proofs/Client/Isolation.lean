import GhostText.Host.Start
import GhostText.Proofs.Client.Heralds
import GhostText.Proofs.Client.Receiving
import GhostText.Proofs.Run.Runs
import GhostText.Proofs.Wire.Borders

/-!
# Messages that are dropped

A body that is no JSON, a value that is no message, and a response that no call waits for leave
nothing behind but log records and the signals that come with them. So a run goes on as it would
have gone on without them, wherever they stand among the bytes that arrive.
-/

namespace GhostText

namespace World

variable {run : Runner} {w w' w'' : World}

/-! ## Worlds that differ in nothing but traces -/

/-- Two worlds that differ in nothing but traces. -/
structure Matches (w w' : World) : Prop where
  state : { w' with events := [] } = { w with events := [] }
  events : (w'.events.filter fun e => !e.isTrace) = w.events.filter fun e => !e.isTrace

theorem Matches.refl (w : World) : w.Matches w := ⟨rfl, rfl⟩

theorem Matches.symm (h : w.Matches w') : w'.Matches w := ⟨h.state.symm, h.events.symm⟩

theorem Matches.trans (h : w.Matches w') (h' : w'.Matches w'') : w.Matches w'' :=
  ⟨h'.state.trans h.state, h'.events.trans h.events⟩

/-- Worlds that match are one world with different pasts. -/
theorem Matches.abreast (h : w.Matches w') :
    Abreast w.outset { w.outset with past := w'.events } w w' := by
  have hw' : w' = { w with events := w'.events } :=
    congrArg (fun u : World => { u with events := w'.events }) h.state
  rw [hw']
  exact abreast_under w.client.verbosity w.client.verbosity w.events w'.events w

/-- Worlds that go on from pasts which match do match. -/
theorem Abreast.matches {o : Outset} {past : List Event}
    (h : Abreast o { o with past := past } w w')
    (hpast : (past.filter fun e => !e.isTrace) = o.past.filter fun e => !e.isTrace) :
    w.Matches w' := by
  obtain ⟨u, said, -, -, rfl, rfl⟩ := h
  exact ⟨rfl, by simp only [since, under, List.filter_append, hpast]⟩

/-- What does the same in worlds that are abreast does the same in worlds that match. -/
theorem Matches.agree {α : Type} (h : w.Matches w') {f : World → α × World}
    (hf : ∀ {o o' : Outset}, Abreast o o' w w' → Agree o o' (f w) (f w')) :
    (f w').1 = (f w).1 ∧ (f w).2.Matches (f w').2 :=
  have hagree := hf h.abreast
  ⟨hagree.answer, hagree.abreast.matches h.events⟩

/-- Messages that are dispatched in worlds that match leave worlds that match. -/
theorem Matches.dispatches (hr : ∀ o o', run.Agrees o o') (h : w.Matches w')
    (bodies : List Frame.Body) :
    (bodies.foldl (dispatch run) w).Matches (bodies.foldl (dispatch run) w') :=
  (h.agree (f := fun w => ((), bodies.foldl (dispatch run) w)) fun hw =>
    (hw.foldl (fun b _ _ hu => hu.dispatch (hr _ _) b) bodies).agree ()).2

/-! ## Messages that are dropped -/

theorem AddsTraces.matches (h : AddsTraces w w') : w.Matches w' := by
  obtain ⟨es, he, ht⟩ := h
  rw [he]
  refine ⟨rfl, ?_⟩
  have hnone : (es.filter fun e => !e.isTrace) = [] :=
    List.filter_eq_nil_iff.2 fun e h => by simp [ht e h]
  rw [List.filter_append, hnone, List.append_nil]

/-- What a client can make nothing of: a body that is no JSON, a value that is no message, and a
response under an identifier that no call waits under. -/
inductive Junk (w : World) : Frame.Body → Prop where
  | malformed (raw : Text) (e : Json.ReadError) : Junk w (.malformed raw e)
  | invalid {v : Json} {violation : Message.Violation} (h : Message.classify v = .error violation) :
    Junk w (.value v)
  | unasked {v id result : Json} {error : Option ResponseError}
    (h : Message.classify v = .ok (.response id result error))
    (hid : id = .null ∨ (∃ s, id = .str s) ∨ ∀ n ∈ w.client.pendingIds, id ≠ .int n) :
    Junk w (.value v)

end World

/-- No call waits under an identifier that is null, a text, or in no table. -/
theorem Client.pendingFor?_eq_none {c : Client} {id : Json}
    (h : id = .null ∨ (∃ s, id = .str s) ∨ ∀ n ∈ c.pendingIds, id ≠ .int n) :
    c.pendingFor? id = none := by
  obtain rfl | ⟨s, rfl⟩ | h := h
  · rfl
  · rfl
  · cases id with
    | int n =>
      refine List.find?_eq_none.2 fun p hp hn => h p.id (List.mem_map_of_mem hp) ?_
      rw [of_decide_eq_true hn]
    | _ => rfl

namespace World

variable {run : Runner} {w w' w'' : World}

/-- What is dropped leaves everything as it is but the traces. -/
theorem addsTraces_dispatch (run : Runner) {b : Frame.Body} (h : w.Junk b) :
    AddsTraces w (dispatch run w b) := by
  cases h with
  | malformed raw e => exact addsTraces_clientLog ..
  | invalid h =>
    simp only [dispatch, h]
    exact addsTraces_clientLog ..
  | @unasked v id result error h hid =>
    simp only [dispatch, h, handleMessage, handleResponse, Client.pendingFor?_eq_none hid]
    split <;> exact (addsTraces_clientLog ..).trans (addsTraces_logTraffic ..)

/-! ## Bytes without what is dropped -/

variable (run) in
/-- A frame that begins where the ones before it end, with a body that is dropped when it is come
to. -/
structure Drops (w : World) (before frame behind : Frame.Bytes) (b : Frame.Body) : Prop where
  border : (w.client.reader.feed before).reader = .fresh
  whole : Frame.Reader.fresh.feed frame = ⟨[b], [], .fresh⟩
  junk : ((w.client.reader.feed before).bodies.foldl (dispatch run)
    (w.feed (before ++ frame ++ behind))).Junk b

variable (run) in
inductive Omits (w : World) (bytes : Frame.Bytes) : Frame.Bytes → Prop where
  | none : Omits w bytes bytes
  | frame {before frame behind : Frame.Bytes} {b : Frame.Body}
    (h : Omits w bytes (before ++ frame ++ behind)) (hd : Drops run w before frame behind b) :
    Omits w bytes (before ++ behind)

/-- A frame that is dropped completes its own body and leaves the others as they are. -/
theorem Drops.feed_eq {before frame behind : Frame.Bytes} {b : Frame.Body}
    (h : Drops run w before frame behind b) :
    w.client.reader.feed (before ++ frame ++ behind) =
      ((w.client.reader.feed before).append ⟨[b], [], .fresh⟩).append
        (Frame.Reader.fresh.feed behind) ∧
    w.client.reader.feed (before ++ behind) =
      (w.client.reader.feed before).append (Frame.Reader.fresh.feed behind) := by
  simp only [Frame.Reader.feed_append, h.border, h.whole, Frame.Completed.append, and_self]

/-- Without a frame that is dropped the same comes of the bytes. -/
theorem Drops.matches (hr : ∀ o o', run.Agrees o o') {before frame behind : Frame.Bytes}
    {b : Frame.Body} (h : Drops run w before frame behind b) :
    (receive run (before ++ frame ++ behind) w).Matches (receive run (before ++ behind) w) := by
  obtain ⟨hwith, hwithout⟩ := h.feed_eq
  have hfeed : w.feed (before ++ behind) = w.feed (before ++ frame ++ behind) := by
    simp only [World.feed, hwith, hwithout, Frame.Completed.append, List.append_nil]
  rw [receive_eq, receive_eq, hfeed, hwith, hwithout]
  simp only [Frame.Completed.append, List.foldl_append, List.foldl_cons, List.foldl_nil]
  exact (addsTraces_dispatch run h.junk).matches.symm.dispatches hr _

/-- A frame that had begun to arrive is as good as one that never did, if it is dropped. -/
theorem matches_receive_begun (hr : ∀ o o', run.Agrees o o') {rest behind : Frame.Bytes}
    {b : Frame.Body} (hrest : w.client.reader.feed rest = ⟨[b], [], .fresh⟩)
    (hb : (w.feed (rest ++ behind)).Junk b) :
    (receive run (rest ++ behind) w).Matches
      (receive run behind (w.updateClient fun c => { c with reader := .fresh })) := by
  have hfeed : w.client.reader.feed (rest ++ behind) =
      (⟨[b], [], .fresh⟩ : Frame.Completed).append (Frame.Reader.fresh.feed behind) := by
    rw [Frame.Reader.feed_append, hrest]
  have hopened : (w.updateClient fun c => { c with reader := .fresh }).feed behind =
      w.feed (rest ++ behind) := by
    simp only [World.feed, hfeed, Frame.Completed.append, List.nil_append]
    rfl
  rw [receive_eq, receive_eq, hopened, hfeed]
  exact (addsTraces_dispatch run hb).matches.symm.dispatches hr _

/-- Whichever body is dropped can be left out of the bytes, unless its frame had begun to arrive. -/
theorem Omits.exists_without {bytes : Frame.Bytes} {bs bs' : List Frame.Body} {b : Frame.Body}
    (hs : w.client.reader.Settled) (h : (w.client.reader.feed bytes).bodies = bs ++ b :: bs')
    (hb : (bs.foldl (dispatch run) (w.feed bytes)).Junk b) :
    (∃ bytes', Omits run w bytes bytes' ∧ (w.client.reader.feed bytes').bodies = bs ++ bs') ∨
    (bs = [] ∧ ∃ rest behind, bytes = rest ++ behind ∧
      w.client.reader.feed rest = ⟨[b], [], .fresh⟩) := by
  obtain ⟨before, frame, behind, rfl, hborder, hbefore, hwhole⟩ | hbegun := hs.exists_frame h
  · have hd : Drops run w before frame behind b := ⟨hborder, hwhole, hbefore ▸ hb⟩
    refine .inl ⟨before ++ behind, .frame .none hd, ?_⟩
    rw [hd.feed_eq.1] at h
    rw [hd.feed_eq.2]
    simp only [Frame.Completed.append, hbefore, List.append_assoc, List.singleton_append,
      List.append_cancel_left_eq, List.cons.injEq, true_and] at h ⊢
    exact h
  · exact .inr hbegun

/-- Without any of the frames that are dropped the same comes of the bytes. -/
theorem Omits.matches (hr : ∀ o o', run.Agrees o o') {bytes bytes' : Frame.Bytes}
    (h : Omits run w bytes bytes') : (receive run bytes w).Matches (receive run bytes' w) := by
  induction h with
  | none => exact .refl _
  | frame h hd ih => exact ih.trans (hd.matches hr)

/-! ## Runs -/

/-- What the actions of a host are answered, one after another. -/
def answers : List Action → World → List (Except Fault Answer)
  | [], _ => []
  | a :: actions, w => (act a w).1 :: answers actions (act a w).2

/-- Some actions of a host, where the bytes that arrive do so without frames that are dropped. -/
inductive Thinned : World → List Action → List Action → Prop where
  | nil (w : World) : Thinned w [] []
  | act {w : World} (a : Action) {actions actions' : List Action}
    (h : Thinned (World.act a w).2 actions actions') : Thinned w (a :: actions) (a :: actions')
  | receive {w : World} {bytes bytes' : Frame.Bytes} {actions actions' : List Action}
    (hbytes : Omits (runTo depthLimit) w bytes bytes')
    (h : Thinned (World.receive (runTo depthLimit) bytes w) actions actions') :
    Thinned w (.client (.receive bytes) :: actions) (.client (.receive bytes') :: actions')

/-- By induction over the actions: what is left out makes no difference at any later time. -/
theorem Thinned.matches {actions actions' : List Action} (h : Thinned w actions actions')
    (hw : w.Matches w') :
    answers actions' w' = answers actions w ∧ (w.after actions).Matches (w'.after actions') := by
  induction h generalizing w' with
  | nil w => exact ⟨rfl, hw⟩
  | act a h ih =>
    obtain ⟨hanswer, hact⟩ := hw.agree (f := World.act a) fun hw => hw.act a
    obtain ⟨hanswers, hafter⟩ := ih hact
    exact ⟨by simp only [answers, hanswer, hanswers], hafter⟩
  | @receive w bytes bytes' actions actions' hbytes h ih =>
    have hr := agrees_runTo depthLimit
    obtain ⟨-, hact⟩ := hw.agree (f := World.act (.client (.receive bytes'))) fun hw => hw.act _
    obtain ⟨hanswers, hafter⟩ := ih ((hbytes.matches hr).trans hact)
    exact ⟨by rw [answers, answers]; exact congrArg _ hanswers, hafter⟩

/-- Every message that some bytes complete reaches the one it is for, in the order of the frames and
whatever fails on the way: a handler, the host's or the protocol's own, or all who wait for the call
that is answered, from the callbacks of the host to the next stage of a handshake and the end of a
fetch. What is junk adds nothing but traces. A run from which it is left out, at any places, is
answered alike and differs in nothing but traces; and whichever message is junk, its frame can be
left out, also where it had begun to arrive with earlier bytes. -/
theorem dispatch_isolated (w : World) :
    (∀ bytes, Brings
      (heraldsOf (runTo depthLimit) (w.feed bytes) (w.client.reader.feed bytes).bodies)
      (w.feed bytes) (World.receive (runTo depthLimit) bytes w)) ∧
    (∀ b, w.Junk b → AddsTraces w (dispatch (runTo depthLimit) w b)) ∧
    (∀ w' actions actions', w.Matches w' → Thinned w actions actions' →
      answers actions' w' = answers actions w ∧ (w.after actions).Matches (w'.after actions')) ∧
    ∀ bytes bs b bs', w.client.reader.Settled →
      (w.client.reader.feed bytes).bodies = bs ++ b :: bs' →
      (bs.foldl (dispatch (runTo depthLimit)) (w.feed bytes)).Junk b →
      (∃ bytes', Omits (runTo depthLimit) w bytes bytes' ∧
        (w.client.reader.feed bytes').bodies = bs ++ bs') ∨
      ∃ bytes', bs = [] ∧ (Frame.Reader.fresh.feed bytes').bodies = bs' ∧
        (World.receive (runTo depthLimit) bytes w).Matches
          (World.receive (runTo depthLimit) bytes'
            (w.updateClient fun c => { c with reader := .fresh })) := by
  have hr := agrees_runTo depthLimit
  refine ⟨fun _ => brings_dispatches hr _ _, fun _ => addsTraces_dispatch _,
    fun _ _ _ hw h => h.matches hw, fun bytes bs b bs' hs h hb => ?_⟩
  obtain homits | ⟨rfl, rest, behind, rfl, hrest⟩ := Omits.exists_without hs h hb
  · exact .inl homits
  · refine .inr ⟨behind, rfl, ?_, matches_receive_begun hr hrest hb⟩
    rw [Frame.Reader.feed_append, hrest] at h
    exact (List.cons_eq_cons.1 h).2

/-- An answer under an identifier that no request has, between a request and the end of the
connection. -/
theorem dispatch_isolated_text_id :
    let w := startClient 0 ⟨true, [], .later, false, []⟩ ⟨.str "", .str "debug", [], []⟩
    let answer := Message.response (.str "7") .null none
    let ask := Action.client (.request (.str "query") (.str "m") .null ⟨none, none⟩ none)
    let actions (bytes : Frame.Bytes) := [ask, .client (.receive bytes), .client .close]
    w.Matches w ∧ Thinned w (actions (Frame.encode answer.toJson)) (actions []) ∧
      answers (actions []) w = answers (actions (Frame.encode answer.toJson)) w ∧
      (w.after (actions (Frame.encode answer.toJson))).Matches (w.after (actions [])) := by
  intro w answer ask actions
  have hfits : Frame.Fits (Frame.bodyOf answer.toJson) := by decide +kernel
  have hformed : answer.isWellFormed := by decide +kernel
  have homits : Omits (runTo depthLimit) (World.act ask w).2
      ([] ++ Frame.encode answer.toJson ++ []) [] :=
    .frame .none ⟨congrArg Frame.Completed.reader Frame.drain_nil,
      Frame.feed_encode hformed hfits,
      .unasked (Message.classify_toJson hformed) (.inr (.inl ⟨"7", rfl⟩))⟩
  rw [List.append_nil, List.nil_append] at homits
  have hthinned : Thinned w (actions (Frame.encode answer.toJson)) (actions []) :=
    .act _ (.receive homits (.act _ (.nil _)))
  exact ⟨.refl w, hthinned, (dispatch_isolated w).2.2.1 w _ _ (.refl w) hthinned⟩

end World

end GhostText
