import GhostText.Proofs.Run.Answering
import GhostText.Startup.Run

/-!
# The course of a start

A start from the command line makes up to six requests, one after the other, and each of them is
answered before the next one is made. Where it gets to follows from the answers alone: an error ends
it with one, and so does what the server tells of the account with zero.
-/

namespace GhostText

/-- Whether a value names this status. -/
def Json.tellsStatus (status : String) (v : Json) : Bool :=
  match v.field? "status" with
  | some (.str s) => s = status
  | _ => false

/-- Comparing a status is looking for a word in the answer. -/
theorem Json.same_str (status : String) (v : Json) :
    (v.fieldD "status").same (.str status) = v.tellsStatus status := by
  unfold tellsStatus fieldD
  cases v.field? "status" with
  | none => simp [same, size?]
  | some u => cases u <;> simp [same, size?, beq_eq_decide]

/-! ## Answers -/

/-- The result or the error in a body, if it answers a request. -/
def Frame.Body.answerTo? (id : Nat) (b : Frame.Body) : Option (Except ResponseError Json) :=
  (b.responseTo? id).map fun r => r.2.elim (.ok r.1) .error

/-- The answers to requests that are numbered one after the other, the first of them `n`: each is
the first one to its request that comes after the answer to the request before. There is no next
request where there was an error. -/
def Frame.answersFrom (n : Nat) : List Frame.Body → List (Except ResponseError Json)
  | [] => []
  | b :: rest =>
    match b.answerTo? n with
    | none => answersFrom n rest
    | some (.ok v) => .ok v :: answersFrom (n + 1) rest
    | some (.error e) => [.error e]

/-! ## Requests -/

namespace Startup

inductive Inquiry where
  | start
  | editorInfo
  | version
  | account
  | signIn
  | confirmation
  deriving DecidableEq, Repr

namespace Inquiry

def all : List Inquiry := [start, editorInfo, version, account, signIn, confirmation]

def number : Inquiry → Nat
  | start => 1
  | editorInfo => 2
  | version => 3
  | account => 4
  | signIn => 5
  | confirmation => 6

def method : Inquiry → String
  | start => "initialize"
  | editorInfo => "setEditorInfo"
  | version => "getVersion"
  | account => "checkStatus"
  | signIn => "signInInitiate"
  | confirmation => "signInConfirm"

def next (flag : Bool) (q : Inquiry) (a : Except ResponseError Json) : Except Nat Inquiry :=
  match q, a with
  | _, .error _ => .error 1
  | start, .ok _ => .ok editorInfo
  | editorInfo, .ok _ => .ok version
  | version, .ok _ => .ok account
  | account, .ok v => if flag && !v.tellsStatus "OK" then .ok signIn else .error 0
  | signIn, .ok v => if v.tellsStatus "AlreadySignedIn" then .error 0 else .ok confirmation
  | confirmation, .ok _ => .error 0

end Inquiry

/-- Where a start stands: the request it has made last, and its exit code once it has ended. -/
structure Stage where
  asked : Inquiry
  code : Option Nat
  deriving DecidableEq, Repr

namespace Stage

/-- The answer to the last request takes a start on. -/
def answer (flag : Bool) (s : Stage) (a : Except ResponseError Json) : Stage :=
  match s.asked.next flag a with
  | .ok q => ⟨q, none⟩
  | .error code => ⟨s.asked, some code⟩

def hear (flag : Bool) (s : Stage) (b : Frame.Body) : Stage :=
  match s.code, b.answerTo? s.asked.number with
  | none, some a => s.answer flag a
  | _, _ => s

/-- A start over the answers to its requests, as long as it asks for them. -/
def follow (flag : Bool) (s : Stage) : List (Except ResponseError Json) → Stage
  | [] => s
  | a :: rest => if s.code.isSome then s else (s.answer flag a).follow flag rest

variable {flag : Bool} {s : Stage}

/-- A start that has ended hears nothing any more. -/
theorem hear_of_code (h : s.code.isSome) (b : Frame.Body) : s.hear flag b = s := by
  unfold hear
  split
  · simp_all
  · rfl

theorem follow_of_code (h : s.code.isSome) (given : List (Except ResponseError Json)) :
    s.follow flag given = s := by
  cases given with
  | nil => rfl
  | cons a rest => rw [follow, if_pos h]

theorem foldl_hear_of_code (h : s.code.isSome) (bodies : List Frame.Body) :
    bodies.foldl (hear flag) s = s :=
  List.foldl_fixed' (hear_of_code h) bodies

end Stage

theorem Inquiry.next_error (flag : Bool) (q : Inquiry) (e : ResponseError) :
    q.next flag (.error e) = .error 1 := by
  cases q <;> rfl

/-- The next request has the next number. -/
theorem Inquiry.number_next {flag : Bool} {q r : Inquiry} {a : Except ResponseError Json}
    (h : q.next flag a = .ok r) : r.number = q.number + 1 := by
  cases a with
  | error e =>
    rw [next_error] at h
    cases h
  | ok v =>
    cases q with
    | start | editorInfo | version =>
      obtain rfl := Except.ok.inj h
      rfl
    | account | signIn =>
      simp only [next] at h
      split at h <;> cases h
      rfl
    | confirmation => cases h

namespace Stage

/-- Only the answers count among all that the server says. -/
theorem foldl_hear (q : Inquiry) (bodies : List Frame.Body) : bodies.foldl (hear flag) ⟨q, none⟩ =
    follow flag ⟨q, none⟩ (Frame.answersFrom q.number bodies) := by
  induction bodies generalizing q with
  | nil => rfl
  | cons b rest ih =>
    rw [List.foldl_cons, hear, Frame.answersFrom]
    cases b.answerTo? q.number with
    | none => exact ih q
    | some a =>
      cases a with
      | error e =>
        have hend : (⟨q, none⟩ : Stage).answer flag (.error e) = ⟨q, some 1⟩ := by
          rw [answer, Inquiry.next_error]
        dsimp only
        rw [hend, foldl_hear_of_code rfl, follow, if_neg (by simp), hend, follow]
      | ok v =>
        dsimp only
        rw [follow, if_neg (by simp), answer]
        cases hnext : q.next flag (.ok v) with
        | ok r => rw [← Inquiry.number_next hnext]; exact ih r
        | error code =>
          dsimp only
          rw [foldl_hear_of_code rfl, follow_of_code rfl]

/-- The last request is not made before the one that comes first. -/
theorem number_le_follow (q : Inquiry) (given : List (Except ResponseError Json)) :
    q.number ≤ (follow flag ⟨q, none⟩ given).asked.number := by
  induction given generalizing q with
  | nil => exact Nat.le_refl _
  | cons a rest ih =>
    rw [follow, if_neg (by simp), answer]
    cases hnext : q.next flag a with
    | ok r => exact Nat.le_trans (by rw [Inquiry.number_next hnext]; omega) (ih r)
    | error code =>
      dsimp only
      rw [follow_of_code rfl]

/-- An error in answer to a request that was made has ended the start with one. -/
theorem code_follow_of_error {given : List (Except ResponseError Json)} {n : Nat}
    {e : ResponseError} (found : given[n]? = some (.error e)) (q : Inquiry)
    (asked : n + q.number ≤ (follow flag ⟨q, none⟩ given).asked.number) :
    (follow flag ⟨q, none⟩ given).code = some 1 := by
  induction given generalizing n q with
  | nil => cases found
  | cons a rest ih =>
    rw [follow, if_neg (by simp), answer] at asked ⊢
    cases n with
    | zero =>
      obtain rfl : a = .error e := Option.some.inj found
      rw [Inquiry.next_error] at asked ⊢
      dsimp only
      rw [follow_of_code rfl]
    | succ n =>
      cases hnext : q.next flag a with
      | ok r =>
        rw [hnext] at asked
        refine ih found r ?_
        rw [Inquiry.number_next hnext, ← Nat.add_assoc, Nat.add_right_comm]
        exact asked
      | error code =>
        rw [hnext] at asked
        dsimp only at asked
        rw [follow_of_code rfl] at asked
        dsimp only at asked
        omega

/-- What ends with zero has an answer that ends it so, or goes on with the next request. -/
theorem of_code_follow {q : Inquiry} {given : List (Except ResponseError Json)}
    (h : (follow flag ⟨q, none⟩ given).code = some 0) : ∃ v rest, given = .ok v :: rest ∧
      (q.next flag (.ok v) = .error 0 ∨ ∃ r, q.next flag (.ok v) = .ok r ∧
        follow flag ⟨q, none⟩ given = follow flag ⟨r, none⟩ rest) := by
  cases given with
  | nil => cases h
  | cons a rest =>
    rw [follow, if_neg (by simp), answer] at h ⊢
    cases a with
    | error e =>
      rw [Inquiry.next_error] at h
      dsimp only at h
      rw [follow_of_code rfl] at h
      cases h
    | ok v =>
      refine ⟨v, rest, rfl, ?_⟩
      cases hnext : q.next flag (.ok v) with
      | ok r => exact .inr ⟨r, rfl, rfl⟩
      | error code =>
        rw [hnext] at h
        dsimp only at h
        rw [follow_of_code rfl] at h
        obtain rfl : code = 0 := Option.some.inj h
        exact .inl rfl

/-- Why a start may end with zero, by what its requests were answered with: the status of the
account came back, and either there was no need to sign in or that succeeded. -/
def Grounds (flag : Bool) (given : List (Except ResponseError Json)) : Prop :=
  ∃ account, given[3]? = some (.ok account) ∧
    (flag = false ∨ account.tellsStatus "OK" ∨
      (∃ v, given[4]? = some (.ok v) ∧ v.tellsStatus "AlreadySignedIn") ∨
      ∃ v, given[5]? = some (.ok v))

/-- A start ends with zero only for these reasons, in the answers to the requests it has made. -/
theorem grounds_of_code {given : List (Except ResponseError Json)}
    (h : (follow flag ⟨.start, none⟩ given).code = some 0) :
    Grounds flag (given.take (follow flag ⟨.start, none⟩ given).asked.number) := by
  have hasked : ∀ (q : Inquiry) (given rest : List (Except ResponseError Json)),
      follow flag ⟨.start, none⟩ given = follow flag ⟨q, none⟩ rest →
        ∀ {n}, n < q.number → ∀ {a}, given[n]? = some a →
          (given.take (follow flag ⟨.start, none⟩ given).asked.number)[n]? = some a := by
    intro q given rest hfollow n hn a ha
    have hle : q.number ≤ (follow flag ⟨q, none⟩ rest).asked.number := number_le_follow q rest
    rw [hfollow, List.getElem?_take_of_lt (by omega), ha]
  obtain ⟨v₀, rest, rfl, hend | ⟨_, hr, h₁⟩⟩ := of_code_follow h
  · cases hend
  obtain rfl := Except.ok.inj hr
  obtain ⟨v₁, rest, rfl, hend | ⟨_, hr, h₂⟩⟩ := of_code_follow (h₁ ▸ h)
  · cases hend
  obtain rfl := Except.ok.inj hr
  obtain ⟨v₂, rest, rfl, hend | ⟨_, hr, h₃⟩⟩ := of_code_follow (h₂ ▸ h₁ ▸ h)
  · cases hend
  obtain rfl := Except.ok.inj hr
  have h₃ := h₁.trans (h₂.trans h₃)
  obtain ⟨account, rest, rfl, hend | ⟨_, hr, h₄⟩⟩ := of_code_follow (h₃ ▸ h)
  · refine ⟨account, hasked _ _ _ h₃ (by decide) rfl, ?_⟩
    cases flag with
    | false => exact .inl rfl
    | true =>
      cases hok : account.tellsStatus "OK" with
      | true => exact .inr (.inl rfl)
      | false => simp [Inquiry.next, hok] at hend
  refine ⟨account, hasked _ _ _ h₃ (by decide) rfl, .inr (.inr ?_)⟩
  simp only [Inquiry.next] at hr
  split at hr <;> cases hr
  have h₄ := h₃.trans h₄
  obtain ⟨v, rest, rfl, hend | ⟨_, hr, h₅⟩⟩ := of_code_follow (h₄ ▸ h)
  · refine .inl ⟨v, hasked _ _ _ h₄ (by decide) rfl, ?_⟩
    cases hin : v.tellsStatus "AlreadySignedIn" with
    | true => rfl
    | false => simp [Inquiry.next, hin] at hend
  simp only [Inquiry.next] at hr
  split at hr <;> cases hr
  have h₅ := h₄.trans h₅
  obtain ⟨v, rest, rfl, -⟩ := of_code_follow (h₅ ▸ h)
  exact .inr ⟨v, hasked _ _ _ h₅ (by decide) rfl⟩

end Stage

end Startup

end GhostText
