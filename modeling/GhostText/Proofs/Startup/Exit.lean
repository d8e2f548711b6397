import GhostText.Proofs.Startup.Beginning
import GhostText.Proofs.Wire.Chunks

/-!
# The exit code tells the truth

A start from the command line goes on from occasion to occasion: bytes of the server arrive, the
transport has something to say, the time runs out. The exit code is zero only where the account
could be told and signing in, if it was asked for, was not needed or succeeded; an error in answer
to any request makes it one; and once it is there it stays.
-/

namespace GhostText

open Startup

inductive Occasion where
  /-- Bytes of the server arrive. Those that come late are handed to the client although the run has
  finished; otherwise nobody looks at bytes any more. -/
  | chunk (bytes : List UInt8) (late : Bool)
  /-- The first of the answers on their way arrives. -/
  | arrival
  /-- The transport has something to say. -/
  | remark (text : String)
  /-- The time in which the server has to become ready is over. -/
  | timeUp

namespace World

variable (run : Runner)

def meet (w : World) : Occasion → World
  | .chunk bytes late => if late then receive run bytes w else deliver run bytes w
  | .arrival =>
    match w.transport.arriving with
    | [] => w
    | payload :: rest => deliver run (Frame.encode payload)
      { w with transport := { w.transport with arriving := rest } }
  | .remark text => w.statusMessage text
  | .timeUp => w.timeOut

def bytesOn (w : World) : Occasion → List UInt8
  | .chunk bytes _ => bytes
  | .arrival => (w.transport.arriving.head?).elim [] Frame.encode
  | _ => []

def meetAll (w : World) (os : List Occasion) : World := os.foldl (meet run) w

def bytesAmid (w : World) : List Occasion → List UInt8
  | [] => []
  | o :: os => w.bytesOn o ++ (w.meet run o).bytesAmid os

/-- What the server answers to the requests that were made, in their order. -/
def answersAmid (w : World) (os : List Occasion) : List (Except ResponseError Json) :=
  (Frame.answersFrom 1 (Frame.decodeAll (w.bytesAmid run os))).take
    (w.meetAll run os).client.calls.length

@[simp] theorem meetAll_cons (w : World) (o : Occasion) (os : List Occasion) :
    w.meetAll run (o :: os) = (w.meet run o).meetAll run os := rfl

theorem meetAll_append (w : World) (os os' : List Occasion) :
    w.meetAll run (os ++ os') = (w.meetAll run os).meetAll run os' :=
  List.foldl_append ..

/-- Answers that are on their way arrive one after the other, and when there are no more the time
runs out. -/
theorem settle_eq_meetAll (n : Nat) (w : World) :
    settle run n w = w.meetAll run (List.replicate n .arrival ++ [.timeUp]) := by
  induction n generalizing w with
  | zero => rfl
  | succ n ih =>
    rw [settle, List.replicate_succ, List.cons_append, meetAll_cons, meet]
    cases harriving : w.transport.arriving with
    | nil =>
      have hstays : ∀ m, w.meetAll run (List.replicate m .arrival) = w := by
        intro m
        induction m with
        | zero => rfl
        | succ m ihm => rwa [List.replicate_succ, meetAll_cons, meet, harriving]
      dsimp only
      rw [meetAll_append, hstays]
      rfl
    | cons payload rest => exact ih _

/-- A whole start over answers that are ready is a run that was launched. -/
theorem startUp_eq (s : Surroundings) (answers : List (String × ReadyAnswer))
    (messages : List String) : startUp s answers messages =
      (launch (runTo depthLimit) s ⟨true, answers, .later, false, []⟩).map fun p =>
        (p.1.meetAll (runTo depthLimit) (messages.map .remark ++
          (List.replicate answerLimit .arrival ++ [.timeUp])), p.2) := by
  have hremarks : ∀ w : World, w.meetAll (runTo depthLimit) (messages.map .remark) =
      messages.foldl (fun w t => w.statusMessage t) w := fun w => List.foldl_map
  rw [startUp]
  cases launch (runTo depthLimit) s ⟨true, answers, .later, false, []⟩ with
  | error f => rfl
  | ok p =>
    obtain ⟨w, disk⟩ := p
    change Except.ok (settle _ _ _, disk) = Except.ok (w.meetAll _ _, disk)
    rw [settle_eq_meetAll, meetAll_append _ w, hremarks]

/-! ## What arrives -/

variable {w : World} {c : Config} {flag : Bool} {r : Frame.Reader} {s : Stage}

theorem OnCourse.hasFinished (h : w.OnCourse c flag r s) : w.hasFinished = s.code.isSome := by
  obtain ⟨waiting, hstartup⟩ := h.startup
  rw [World.hasFinished, hstartup]
  rfl

theorem OnCourse.exitCode (h : w.OnCourse c flag r s) : w.exitCode = s.code.getD 1 := by
  obtain ⟨waiting, hstartup⟩ := h.startup
  rw [World.exitCode, hstartup]
  rfl

theorem OnCourse.foldl_dispatch (h : w.OnCourse c flag r s) (bodies : List Frame.Body) :
    (bodies.foldl (World.dispatch run) w).OnCourse c flag r (bodies.foldl (Stage.hear flag) s) :=
  List.foldl_rel (r := fun (w : World) s => w.OnCourse c flag r s) h fun b _ _ _ h =>
    h.dispatch run b

/-- Once a start has ended it does not matter what its reader has read. -/
theorem OnCourse.of_code (h : w.OnCourse c flag r s) (hs : s.code.isSome) (r' : Frame.Reader) :
    w.OnCourse c flag r' s :=
  ⟨h.toUnderway, fun hnone => by simp [hnone] at hs, h.ended⟩

/-- The messages that some bytes complete are heard one after the other. -/
theorem OnCourse.receive (h : w.OnCourse c flag r s) (bytes : List UInt8) :
    (World.receive run bytes w).OnCourse c flag (r.feed bytes).reader
      ((r.feed bytes).bodies.foldl (Stage.hear flag) s) := by
  have hon : (w.feed bytes).OnCourse c flag (w.client.reader.feed bytes).reader s := by
    refine OnCourse.congr (w := w.updateClient fun c =>
      { c with reader := (w.client.reader.feed bytes).reader }) ⟨⟨h.ledger.congr rfl rfl,
        h.methods, h.handlers, h.subscriptions, h.startup⟩, fun hnone => ?_, h.ended⟩
        (addsAsides_feed bytes w).bearings
    have hw := h.waits hnone
    exact ⟨⟨hw.accepting, hw.arrival, rfl⟩, hw.pending, hw.call⟩
  have hall := hon.foldl_dispatch run (w.client.reader.feed bytes).bodies
  rw [← receive_eq] at hall
  cases hcode : s.code with
  | none => exact (h.waits hcode).reader ▸ hall
  | some code =>
    have hs : s.code.isSome := by rw [hcode]; rfl
    rw [Stage.foldl_hear_of_code hs] at hall ⊢
    exact hall.of_code hs _

/-- A start that waits may run out of time. -/
theorem OnCourse.timeOut (h : w.OnCourse c flag r s) : w.timeOut.OnCourse c flag r s ∨
    s.code = none ∧ w.timeOut.OnCourse c flag r ⟨s.asked, some 1⟩ := by
  unfold World.timeOut
  split
  · next hover =>
    simp only [h.hasFinished, Bool.and_eq_true, Bool.not_eq_true', Option.isSome_eq_false_iff,
      Option.isNone_iff_eq_none] at hover
    obtain ⟨q, code⟩ := s
    obtain rfl : code = none := hover.1
    exact .inr ⟨rfl, (h.toUnderway.congr (bearings_log ..)).finish c r 1⟩
  · exact .inl h

/-! ## Runs -/

/-- Since some stage some bytes have arrived, and the start stands where they have taken it, unless
it waited and the time has run out. -/
def Reaches (c : Config) (flag : Bool) (first : Stage) (bytes : List UInt8) (w : World) : Prop :=
  ∃ s, w.OnCourse c flag (Frame.Reader.fresh.feed bytes).reader s ∧
    (s = (Frame.decodeAll bytes).foldl (Stage.hear flag) first ∨
      first.code = none ∧ s.code = some 1)

theorem foldl_hear_append (bytes more : List UInt8) :
    (Frame.decodeAll (bytes ++ more)).foldl (Stage.hear flag) s =
      ((Frame.Reader.fresh.feed bytes).reader.feed more).bodies.foldl (Stage.hear flag)
        ((Frame.decodeAll bytes).foldl (Stage.hear flag) s) := by
  rw [Frame.decodeAll, Frame.Reader.feed_append, Frame.Completed.append, List.foldl_append]
  rfl

variable {first : Stage} {bytes : List UInt8}

/-- A start that waits takes the bytes in, and one that has ended stays where it stands. -/
theorem OnCourse.chunk (h : w.OnCourse c flag r s) (bytes : List UInt8) (late : Bool) :
    (w.meet run (.chunk bytes late)).OnCourse c flag (r.feed bytes).reader
      ((r.feed bytes).bodies.foldl (Stage.hear flag) s) := by
  have hreceived := h.receive run bytes
  unfold World.meet
  dsimp only
  split
  · exact hreceived
  · unfold deliver
    split
    · next hover =>
      rw [h.hasFinished] at hover
      rw [Stage.foldl_hear_of_code hover]
      exact h.of_code hover _
    · exact hreceived

theorem Reaches.congr {w' : World} (h : w.Reaches c flag first bytes)
    (e : w'.bearings = w.bearings) : w'.Reaches c flag first bytes := by
  obtain ⟨s, hon, hs⟩ := h
  exact ⟨s, hon.congr e, hs⟩

/-- More bytes take a start on as if they had come at once with those before. -/
theorem Reaches.more (h : w.Reaches c flag first bytes) (more : List UInt8) (late : Bool) :
    (w.meet run (.chunk more late)).Reaches c flag first (bytes ++ more) := by
  obtain ⟨s, hon, hs⟩ := h
  have hreader : (Frame.Reader.fresh.feed (bytes ++ more)).reader =
      ((Frame.Reader.fresh.feed bytes).reader.feed more).reader := by
    rw [Frame.Reader.feed_append]
    rfl
  refine ⟨_, hreader ▸ hon.chunk run more late, ?_⟩
  rcases hs with rfl | ⟨hfirst, hone⟩
  · exact .inl (foldl_hear_append ..).symm
  · rw [Stage.foldl_hear_of_code (by rw [hone]; rfl)]
    exact .inr ⟨hfirst, hone⟩

/-- When its time is up a start that waits has failed, and one that waits no more is left alone. -/
theorem Reaches.timeOut (h : w.Reaches c flag first bytes) :
    w.timeOut.Reaches c flag first bytes := by
  obtain ⟨s, hon, hs⟩ := h
  rcases hon.timeOut with hsame | ⟨hnone, hover⟩
  · exact ⟨s, hsame, hs⟩
  · refine ⟨_, hover, .inr ⟨?_, rfl⟩⟩
    rcases hs with rfl | ⟨hfirst, -⟩
    · by_contra hended
      rw [Stage.foldl_hear_of_code (Option.isSome_iff_ne_none.2 hended)] at hnone
      exact hended hnone
    · exact hfirst

theorem Reaches.meet (h : w.Reaches c flag first bytes) (o : Occasion) :
    (w.meet run o).Reaches c flag first (bytes ++ w.bytesOn o) := by
  cases o with
  | chunk more late => exact h.more run more late
  | arrival =>
    unfold World.meet bytesOn
    cases w.transport.arriving with
    | nil => exact (List.append_nil bytes).symm ▸ h
    | cons payload rest =>
      have hleft : { w with transport := { w.transport with arriving := rest } }.Reaches c flag
          first bytes := h.congr rfl
      exact hleft.more run (Frame.encode payload) false
  | remark text => exact (List.append_nil bytes).symm ▸ h.congr (bearings_statusMessage text w)
  | timeUp => exact (List.append_nil bytes).symm ▸ h.timeOut

/-- Whatever meets a start, it gets where the bytes that have come take it. -/
theorem Reaches.meetAll (h : w.Reaches c flag first bytes) (os : List Occasion) :
    (w.meetAll run os).Reaches c flag first (bytes ++ w.bytesAmid run os) := by
  induction os generalizing w bytes with
  | nil => exact (List.append_nil bytes).symm ▸ h
  | cons o os ih =>
    rw [bytesAmid, ← List.append_assoc]
    exact ih (h.meet run o)

theorem OnCourse.reaches (h : w.OnCourse c flag .fresh s) : w.Reaches c flag s [] :=
  ⟨s, by rw [Frame.Reader.feed, Frame.Reader.fresh, List.nil_append, Frame.drain_nil]; exact h,
    .inl (by rw [Frame.decodeAll, Frame.Reader.feed, Frame.Reader.fresh, List.nil_append,
      Frame.drain_nil]; rfl)⟩

/-- A start that is launched stands at its first request. -/
theorem reaches_launch {s : Surroundings} {t : Transport} {disk : Disk}
    (h : launch run s t = .ok (w, disk)) (later : t.arrival = .later) :
    ∃ c, w.Reaches c (s.arguments.contains Arguments.signInFlag) ⟨.start, none⟩ [] := by
  have hlaunched : ∃ c warning folder, w = launched run s.processId t c warning
      (s.arguments.contains Arguments.signInFlag) folder := by
    obtain ⟨config, -, h⟩ := exists_of_bind_eq_ok h
    dsimp only [Arguments.split] at h
    split at h
    · exact ⟨_, _, _, (congrArg Prod.fst (Except.ok.inj h)).symm⟩
    · obtain ⟨folder, -, h⟩ := exists_of_bind_eq_ok h
      exact ⟨_, _, _, (congrArg Prod.fst (Except.ok.inj h)).symm⟩
  obtain ⟨c, warning, folder, rfl⟩ := hlaunched
  obtain ⟨code, hon, hcode⟩ := onCourse_launched (c := c) run s.processId later warning
    (s.arguments.contains Arguments.signInFlag) folder
  refine ⟨c, ?_⟩
  rcases hcode with rfl | rfl
  · exact hon.reaches
  · exact ⟨_, hon.of_code rfl _, .inr ⟨rfl, rfl⟩⟩

/-- A start that has ended keeps its exit code, whatever happens. -/
theorem OnCourse.exitCode_meetAll (h : w.OnCourse c flag r s) (ended : s.code.isSome)
    (os : List Occasion) : (w.meetAll run os).exitCode = w.exitCode := by
  obtain ⟨s', hon, hs'⟩ := (h.of_code ended .fresh).reaches.meetAll run os
  rcases hs' with rfl | ⟨hnone, -⟩
  · rw [hon.exitCode, h.exitCode, Stage.foldl_hear_of_code ended]
  · simp [hnone] at ended

/-- What stands behind the end in a chunk does not change the exit code. -/
theorem OnCourse.exitCode_receive_append (h : w.OnCourse c flag r s) {bytes : List UInt8}
    (ended : (World.receive run bytes w).hasFinished) (more : List UInt8) :
    (World.receive run (bytes ++ more) w).exitCode = (World.receive run bytes w).exitCode := by
  have hfirst := h.receive run bytes
  have hall := h.receive run (bytes ++ more)
  rw [hfirst.hasFinished] at ended
  rw [Frame.Reader.feed_append, Frame.Completed.append, List.foldl_append,
    Stage.foldl_hear_of_code ended] at hall
  rw [hfirst.exitCode, hall.exitCode]

/-- The requests of a start are the first ones of its course, in order. -/
theorem Underway.requests (h : w.Underway flag s) :
    w.client.calls.map (fun k => (k.id, k.method)) =
      (Inquiry.all.take w.client.calls.length).map fun q => (q.number, q.method) := by
  rw [← List.zip_map', h.ledger.ids, h.methods, h.length_calls]
  cases s.asked <;> rfl

/-- A run that was launched exits with zero only if the request for the status of the account was
answered with a result, and either it was not to sign in, or that status is OK, or the request to
sign in was then answered with being signed in already, or the confirmation was then answered with a
result. If any of the requests it has made is answered with an error it exits with one. Once it has
finished nothing that happens changes the exit code, be it the rest of the same chunk or what comes
after it. -/
theorem exitCode_truthful {s : Surroundings} {t : Transport} {disk : Disk}
    (launched : launch run s t = .ok (w, disk)) (later : t.arrival = .later) (os : List Occasion) :
    let w' := w.meetAll run os
    let given := w.answersAmid run os
    w'.client.calls.map (fun k => (k.id, k.method)) =
      (Inquiry.all.take w'.client.calls.length).map (fun q => (q.number, q.method)) ∧
    (w'.exitCode = 0 → ∃ account, given[3]? = some (.ok account) ∧
      (Arguments.signInFlag ∉ s.arguments ∨ account.tellsStatus "OK" ∨
        (∃ v, given[4]? = some (.ok v) ∧ v.tellsStatus "AlreadySignedIn") ∨
        ∃ v, given[5]? = some (.ok v))) ∧
    (∀ e, .error e ∈ given → w'.hasFinished ∧ w'.exitCode = 1) ∧
    (w'.hasFinished → ∀ more, (w'.meetAll run more).exitCode = w'.exitCode) ∧
    ∀ bytes more, (receive run bytes w').hasFinished →
      (receive run (bytes ++ more) w').exitCode = (receive run bytes w').exitCode := by
  intro w' given
  obtain ⟨c, hreaches⟩ := reaches_launch run launched later
  obtain ⟨st, hon, hst⟩ := hreaches.meetAll run os
  rw [List.nil_append, Stage.foldl_hear] at hst
  have hgiven : given = (Frame.answersFrom Inquiry.start.number
      (Frame.decodeAll (w.bytesAmid run os))).take st.asked.number := by
    rw [← hon.length_calls]
    rfl
  refine ⟨hon.requests, fun hzero => ?_, fun e he => ?_, fun hended more => ?_,
    fun bytes more hended => hon.exitCode_receive_append run hended more⟩
  · rw [hon.exitCode] at hzero
    have hcode : st.code = some 0 := by
      cases hs : st.code with
      | none => simp [hs] at hzero
      | some code => simpa [hs] using hzero
    rcases hst with rfl | ⟨-, hone⟩
    · obtain ⟨account, haccount, hwhy⟩ := Stage.grounds_of_code hcode
      exact ⟨account, hgiven ▸ haccount, by simpa [hgiven] using hwhy⟩
    · simp [hcode] at hone
  · have hcode : st.code = some 1 := by
      rcases hst with rfl | ⟨-, hone⟩
      · obtain ⟨n, hn⟩ := List.mem_iff_getElem?.1 (hgiven ▸ he)
        have hlt : n < _ := (List.getElem?_eq_some_iff.1 hn).1
        rw [List.length_take, Nat.lt_min] at hlt
        rw [List.getElem?_take_of_lt hlt.1] at hn
        exact Stage.code_follow_of_error hn .start hlt.1
      · exact hone
    rw [hon.hasFinished, hon.exitCode, hcode]
    exact ⟨rfl, rfl⟩
  · rw [hon.hasFinished] at hended
    exact hon.exitCode_meetAll run hended more

/-- Signing in is asked for and confirmed, amid answers that come too early, twice and too late. -/
theorem exitCode_truthful_confirmed :
    let reply (id : Int) (fields : Fields) (error : Option ResponseError) : List UInt8 :=
      Frame.encode (Message.response (.int id) (.obj fields) error).toJson
    let failure : ResponseError := .of .internalError "late"
    let s : Surroundings :=
      ⟨["--sign-in"], "/home/u", fun _ => false, ⟨"/s.json", "/", .nothing⟩, 1⟩
    let t : Transport := ⟨true, [], .later, false, []⟩
    let os : List Occasion := [
      .chunk (reply 2 [] (some failure) ++ reply 1 [] none ++ reply 2 [] none ++ reply 3 [] none)
        false,
      .timeUp,
      .chunk (reply 4 [("status", .str "NotSignedIn")] none ++ reply 4 [] (some failure)) false,
      .chunk (reply 5 [("status", .str "PromptUserDeviceFlow")] none) false,
      .chunk (reply 6 [("status", .str "OK")] none ++ reply 6 [] (some failure)) false,
      .chunk (reply 5 [] (some failure)) true]
    ∃ w disk, launch (runTo depthLimit) s t = .ok (w, disk) ∧ t.arrival = .later ∧
      let w' := w.meetAll (runTo depthLimit) os
      let given := w.answersAmid (runTo depthLimit) os
      (w'.exitCode, given.length) = (0, 6) ∧
      (∃ account, given[3]? = some (.ok account) ∧
        (Arguments.signInFlag ∉ s.arguments ∨ account.tellsStatus "OK" ∨
          (∃ v, given[4]? = some (.ok v) ∧ v.tellsStatus "AlreadySignedIn") ∨
          ∃ v, given[5]? = some (.ok v))) ∧
      ∀ more, (w'.meetAll (runTo depthLimit) more).exitCode = w'.exitCode := by
  intro reply failure s t os
  refine ⟨_, _, rfl, rfl, ?_⟩
  intro w' given
  have hrun : (w'.hasFinished, w'.exitCode, given.length) = (true, 0, 6) := by decide +kernel
  obtain ⟨hfinished, hcode⟩ := Prod.mk.inj hrun
  obtain ⟨-, hzero, -, hstays, -⟩ :=
    exitCode_truthful (s := s) (t := t) (runTo depthLimit) rfl rfl os
  exact ⟨hcode, hzero (congrArg Prod.fst hcode), hstays hfinished⟩

end World

end GhostText
