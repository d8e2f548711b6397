import GhostText.Proofs.Wire.Messages

/-!
# The grammar of messages

Which values are messages, said of the members of the value alone. Reading a value goes by this
grammar: it is one kind of message, with what stands in its members, or it is none. A message that
was read is written with the members it was read from.
-/

namespace GhostText

namespace Json

inductive IsId : Json → Prop where
  | null : IsId .null
  | int (n : Int) : IsId (.int n)
  | text (s : String) : IsId (.str s)

inductive IsParams : Json → Prop where
  | array (items : List Json) : IsParams (.arr items)
  | object (fields : Fields) : IsParams (.obj fields)

/-- What every message has. The identifier and the parameters may be absent. -/
structure IsEnvelope (v : Json) : Prop where
  object : ∃ fields, v = .obj fields
  version : ∃ tag, v.field? "jsonrpc" = some (.str tag)
  id : ∀ i, v.field? "id" = some i → i.IsId
  params : ∀ p, v.field? "params" = some p → p.IsParams

/-- An object with an integer code and a text; data may stand beside them. -/
structure IsError (e : Json) (code : Int) (message : String) : Prop where
  object : ∃ fields, e = .obj fields
  code : e.field? "code" = some (.int code)
  message : e.field? "message" = some (.str message)

/-- An answer under an identifier: a result or an error, and no method. -/
structure IsResponse (v id : Json) : Prop where
  envelope : v.IsEnvelope
  id : v.field? "id" = some id
  method : v.field? "method" = none
  outcome : (∃ result, v.field? "result" = some result ∧ v.field? "error" = none) ∨
    ∃ e code message, v.field? "result" = none ∧ v.field? "error" = some e ∧ e.IsError code message

structure IsCall (v : Json) : Prop where
  envelope : v.IsEnvelope
  method : ∃ name, v.field? "method" = some (.str name)
  result : v.field? "result" = none
  error : v.field? "error" = none

/-- An identifier is a whole number, a text or null. -/
theorem isId_iff {v : Json} : Message.isId v = true ↔ v.IsId := by
  constructor
  · intro h
    cases v with
    | null => exact .null
    | int n => exact .int n
    | str s => exact .text s
    | _ => cases h
  · rintro (_ | _ | _) <;> rfl

theorem isStructured_iff {v : Json} : v.isStructured = true ↔ v.IsParams := by
  constructor
  · intro h
    cases v with
    | arr items => exact .array items
    | obj fields => exact .object fields
    | _ => cases h
  · rintro (_ | _) <;> rfl

theorem fieldD_isText_iff {v : Json} {key : String} :
    (v.fieldD key).isText = true ↔ ∃ s, v.field? key = some (.str s) := by
  unfold fieldD
  cases h : v.field? key with
  | none => simp [isText]
  | some w => cases w <;> simp [isText]

theorem isObject_iff {v : Json} : v.isObject = true ↔ ∃ fields, v = .obj fields := by
  cases v <;> simp [isObject]

end Json

namespace Message

open Json

/-- The checks that come first pass where there is an envelope. -/
theorem isEnvelope_iff {v : Json} : v.IsEnvelope ↔
    v.isObject = true ∧ (v.fieldD "jsonrpc").isText = true ∧
      (v.field? "id").any (!isId ·) = false ∧
        (v.field? "params").any (!·.isStructured) = false := by
  have hid : (v.field? "id").any (!isId ·) = false ↔ ∀ i, v.field? "id" = some i → i.IsId := by
    cases v.field? "id" <;> simp [isId_iff]
  have hparams : (v.field? "params").any (!·.isStructured) = false ↔
      ∀ p, v.field? "params" = some p → p.IsParams := by
    cases v.field? "params" <;> simp [isStructured_iff]
  rw [isObject_iff, fieldD_isText_iff, hid, hparams]
  exact ⟨fun h => ⟨h.object, h.version, h.id, h.params⟩, fun ⟨ho, hv, hi, hp⟩ => ⟨ho, hv, hi, hp⟩⟩

/-- An error is read with its data, and from nothing but an object with a code and a text. -/
theorem errorOf?_eq_some_iff {v : Json} {e : ResponseError} :
    errorOf? v = some e ↔ v.IsError e.code e.message ∧ v.field? "data" = e.data := by
  obtain ⟨code, message, data⟩ := e
  constructor
  · intro h
    unfold errorOf? at h
    split at h
    · next hobject hcode hmessage =>
      cases h
      exact ⟨⟨isObject_iff.1 hobject, hcode, hmessage⟩, rfl⟩
    · cases h
  · rintro ⟨⟨hobject, hcode, hmessage⟩, rfl⟩
    simp only [errorOf?, isObject_iff.2 hobject, hcode, hmessage]

/-- The message that a value stands for, by what its members are. -/
inductive Reads (v : Json) : Message → Prop where
  | result {id result : Json} (envelope : v.IsEnvelope) (hasId : v.field? "id" = some id)
      (noMethod : v.field? "method" = none) (hasResult : v.field? "result" = some result)
      (noError : v.field? "error" = none) : Reads v (.response id result none)
  | failure {id err : Json} {e : ResponseError} (envelope : v.IsEnvelope)
      (hasId : v.field? "id" = some id) (noMethod : v.field? "method" = none)
      (noResult : v.field? "result" = none) (hasError : v.field? "error" = some err)
      (wellFormed : err.IsError e.code e.message) (data : err.field? "data" = e.data) :
      Reads v (.response id .null (some e))
  | request {id : Json} {method : String} (envelope : v.IsEnvelope)
      (hasId : v.field? "id" = some id) (hasMethod : v.field? "method" = some (.str method))
      (noResult : v.field? "result" = none) (noError : v.field? "error" = none) :
      Reads v (.request id method ((v.field? "params").getD .null))
  | notification {method : String} (envelope : v.IsEnvelope) (noId : v.field? "id" = none)
      (hasMethod : v.field? "method" = some (.str method)) (noResult : v.field? "result" = none)
      (noError : v.field? "error" = none) :
      Reads v (.notification method ((v.field? "params").getD .null))

/-- Every message has the version of the protocol. -/
theorem Reads.envelope {v : Json} {m : Message} (h : Reads v m) : v.IsEnvelope := by
  cases h <;> assumption

/-- What is read stands there as the grammar says: the checks of the envelope have passed, and each
kind of message is left with the members that it has. -/
theorem Reads.of_classify {v : Json} {m : Message} (h : classify v = .ok m) : Reads v m := by
  unfold classify at h
  dsimp only at h
  split at h
  · cases h
  next hobject =>
  split at h
  · cases h
  next hversion =>
  split at h
  · cases h
  next hid =>
  split at h
  · cases h
  next hparams =>
  have henvelope : v.IsEnvelope :=
    isEnvelope_iff.2 ⟨by simpa using hobject, by simpa using hversion,
      Bool.eq_false_iff.2 hid, Bool.eq_false_iff.2 hparams⟩
  split at h
  · cases h
  · next id e hasId noMethod noResult hasError =>
    split at h
    · next e' he =>
      cases h
      obtain ⟨wellFormed, data⟩ := errorOf?_eq_some_iff.1 he
      exact .failure henvelope hasId noMethod noResult hasError wellFormed data
    · cases h
  · next hasId noMethod hasResult noError =>
    cases h
    exact .result henvelope hasId noMethod hasResult noError
  · next hasMethod =>
    split at h
    · cases h
    next hnone =>
    have hnone : v.field? "result" = none ∧ v.field? "error" = none := by simpa using hnone
    split at h
    · next hasId =>
      cases h
      exact .request henvelope hasId hasMethod hnone.1 hnone.2
    · next noId =>
      cases h
      exact .notification henvelope noId hasMethod hnone.1 hnone.2
  · cases h

/-- Reading a value goes by the grammar. -/
theorem classify_eq_ok_iff {v : Json} {m : Message} : classify v = .ok m ↔ Reads v m := by
  refine ⟨.of_classify, fun h => ?_⟩
  obtain ⟨hobject, hversion, hid, hparams⟩ := isEnvelope_iff.1 h.envelope
  cases h with
  | result _ hasId noMethod hasResult noError =>
    simp_all [classify]
  | failure _ hasId noMethod noResult hasError wellFormed data =>
    have he := errorOf?_eq_some_iff.2 ⟨wellFormed, data⟩
    simp_all [classify]
  | request _ hasId hasMethod noResult noError => simp_all [classify]
  | notification _ noId hasMethod noResult noError => simp_all [classify]

/-! ## What is written of it -/

/-- The parameters of a message that has some are written as they were read. -/
theorem lookup_paramsField_read {v : Json} (h : v.IsEnvelope) :
    (paramsField ((v.field? "params").getD .null)).lookup "params" = v.field? "params" := by
  cases hp : v.field? "params" with
  | none => rfl
  | some p => cases h.params p hp <;> rfl

/-- The version, the identifier, the method and the result are written as they were read. -/
theorem Reads.field?_toJson {v : Json} {m : Message} (h : Reads v m)
    (version : v.field? "jsonrpc" = some (.str "2.0")) {key : String}
    (hkey : key ∈ ["jsonrpc", "id", "method", "result"]) :
    m.toJson.field? key = v.field? key := by
  simp only [List.mem_cons, List.not_mem_nil, or_false] at hkey
  cases h with
  | result _ hasId noMethod hasResult noError =>
    rcases hkey with rfl | rfl | rfl | rfl <;> simp [toJson, List.lookup_cons, *]
  | failure _ hasId noMethod noResult hasError _ _ =>
    rcases hkey with rfl | rfl | rfl | rfl <;> simp [toJson, List.lookup_cons, *]
  | request _ hasId hasMethod noResult noError =>
    rcases hkey with rfl | rfl | rfl | rfl <;>
      simp [toJson, List.lookup_cons, lookup_paramsField_other, *]
  | notification _ noId hasMethod noResult noError =>
    rcases hkey with rfl | rfl | rfl | rfl <;>
      simp [toJson, List.lookup_cons, lookup_paramsField_other, *]

/-- The parameters are written as they were read, but those of an answer. -/
theorem Reads.params_toJson {v : Json} {m : Message} (h : Reads v m)
    (hasMethod : v.field? "method" ≠ none) : m.toJson.field? "params" = v.field? "params" := by
  cases h with
  | result _ _ noMethod _ _ => exact absurd noMethod hasMethod
  | failure _ _ noMethod _ _ _ _ => exact absurd noMethod hasMethod
  | request henvelope _ _ _ _ =>
    simp [toJson, List.lookup_cons, lookup_paramsField_read henvelope]
  | notification henvelope _ _ _ _ =>
    simp [toJson, List.lookup_cons, lookup_paramsField_read henvelope]

/-- Two values are errors with the same code, the same text and the same data, if any. -/
def SameError (e e' : Json) : Prop :=
  ∀ key ∈ ["code", "message", "data"], e.field? key = e'.field? key

/-- An error is written where one was read, with the code, the text and the data it had. -/
theorem Reads.error_toJson {v : Json} {m : Message} (h : Reads v m) :
    Option.Rel SameError (m.toJson.field? "error") (v.field? "error") := by
  cases h with
  | result _ _ _ _ noError => simp [toJson, List.lookup_cons, noError]
  | @failure id err e _ _ _ _ hasError wellFormed data =>
    obtain ⟨code, message, d⟩ := e
    have hcode := wellFormed.code
    have hmessage := wellFormed.message
    simp only [toJson, field?_obj, List.lookup_cons, hasError, String.reduceBEq]
    refine .some fun key hkey => ?_
    simp only [List.mem_cons, List.not_mem_nil, or_false] at hkey
    rcases hkey with rfl | rfl | rfl <;>
      cases d <;> simp_all [ResponseError.toJson, List.lookup_cons]
  | request _ _ _ _ noError =>
    simp [toJson, List.lookup_cons, noError, lookup_paramsField_other]
  | notification _ _ _ _ noError =>
    simp [toJson, List.lookup_cons, noError, lookup_paramsField_other]

/-! ## Which values are messages -/

/-- A value is a response exactly if its members say so. -/
theorem classify_response_iff {v id : Json} :
    (∃ result error, classify v = .ok (.response id result error)) ↔ v.IsResponse id := by
  constructor
  · rintro ⟨result, error, h⟩
    cases classify_eq_ok_iff.1 h with
    | result henvelope hasId noMethod hasResult noError =>
      exact ⟨henvelope, hasId, noMethod, .inl ⟨_, hasResult, noError⟩⟩
    | failure henvelope hasId noMethod noResult hasError wellFormed _ =>
      exact ⟨henvelope, hasId, noMethod, .inr ⟨_, _, _, noResult, hasError, wellFormed⟩⟩
  · rintro ⟨henvelope, hasId, noMethod, ⟨result, hasResult, noError⟩ | h⟩
    · exact ⟨_, _, classify_eq_ok_iff.2 (.result henvelope hasId noMethod hasResult noError)⟩
    · obtain ⟨e, code, message, noResult, hasError, wellFormed⟩ := h
      have hread : Reads v (.response id .null (some ⟨code, message, e.field? "data"⟩)) :=
        .failure henvelope hasId noMethod noResult hasError wellFormed rfl
      exact ⟨_, _, classify_eq_ok_iff.2 hread⟩

/-- A call with an identifier is a request. -/
theorem classify_request_iff {v id : Json} :
    (∃ method params, classify v = .ok (.request id method params)) ↔
      v.IsCall ∧ v.field? "id" = some id := by
  constructor
  · rintro ⟨method, params, h⟩
    cases classify_eq_ok_iff.1 h with
    | request henvelope hasId hasMethod noResult noError =>
      exact ⟨⟨henvelope, ⟨_, hasMethod⟩, noResult, noError⟩, hasId⟩
  · rintro ⟨⟨henvelope, ⟨name, hasMethod⟩, noResult, noError⟩, hasId⟩
    exact ⟨_, _, classify_eq_ok_iff.2 (.request henvelope hasId hasMethod noResult noError)⟩

/-- A call without an identifier is a notification. -/
theorem classify_notification_iff {v : Json} :
    (∃ method params, classify v = .ok (.notification method params)) ↔
      v.IsCall ∧ v.field? "id" = none := by
  constructor
  · rintro ⟨method, params, h⟩
    cases classify_eq_ok_iff.1 h with
    | notification henvelope noId hasMethod noResult noError =>
      exact ⟨⟨henvelope, ⟨_, hasMethod⟩, noResult, noError⟩, noId⟩
  · rintro ⟨⟨henvelope, ⟨name, hasMethod⟩, noResult, noError⟩, noId⟩
    exact ⟨_, _, classify_eq_ok_iff.2 (.notification henvelope noId hasMethod noResult noError)⟩

/-- What is neither an answer nor a call is no message. -/
theorem classify_error_iff {v : Json} :
    (∃ violation, classify v = .error violation) ↔ (∀ id, ¬ v.IsResponse id) ∧ ¬ v.IsCall := by
  constructor
  · rintro ⟨violation, h⟩
    refine ⟨fun id hid => ?_, fun hcall => ?_⟩
    · obtain ⟨result, error, hok⟩ := classify_response_iff.2 hid
      simp [h] at hok
    · cases hid : v.field? "id" with
      | none =>
        obtain ⟨method, params, hok⟩ := classify_notification_iff.2 ⟨hcall, hid⟩
        simp [h] at hok
      | some id =>
        obtain ⟨method, params, hok⟩ := classify_request_iff.2 ⟨hcall, hid⟩
        simp [h] at hok
  · rintro ⟨noResponse, noCall⟩
    cases h : classify v with
    | error violation => exact ⟨violation, rfl⟩
    | ok m =>
      cases m with
      | request id method params => exact absurd (classify_request_iff.1 ⟨_, _, h⟩).1 noCall
      | response id result error => exact absurd (classify_response_iff.1 ⟨_, _, h⟩) (noResponse id)
      | notification method params =>
        exact absurd (classify_notification_iff.1 ⟨_, _, h⟩).1 noCall

/-- Every value is an answer, a request, a notification or no message, each of them just where the
grammar says so. What was read as a message of the known version is written with the members it was
read from, an error with its code, text and data; only the parameters of an answer are lost. -/
theorem classify_grammar (v : Json) :
    (∀ id, (∃ result error, classify v = .ok (.response id result error)) ↔ v.IsResponse id) ∧
    (∀ id, (∃ method params, classify v = .ok (.request id method params)) ↔
      v.IsCall ∧ v.field? "id" = some id) ∧
    ((∃ method params, classify v = .ok (.notification method params)) ↔
      v.IsCall ∧ v.field? "id" = none) ∧
    ((∃ violation, classify v = .error violation) ↔ (∀ id, ¬ v.IsResponse id) ∧ ¬ v.IsCall) ∧
    ∀ m, classify v = .ok m → v.field? "jsonrpc" = some (.str "2.0") →
      (∀ key ∈ ["jsonrpc", "id", "method", "result"], m.toJson.field? key = v.field? key) ∧
      (v.field? "method" ≠ none → m.toJson.field? "params" = v.field? "params") ∧
      Option.Rel SameError (m.toJson.field? "error") (v.field? "error") := by
  refine ⟨fun _ => classify_response_iff, fun _ => classify_request_iff,
    classify_notification_iff, classify_error_iff, fun m hm version => ?_⟩
  have hread := classify_eq_ok_iff.1 hm
  exact ⟨fun key => hread.field?_toJson version, hread.params_toJson, hread.error_toJson⟩

/-- An error answer under a null identifier, whose error has null for its data and a member that no
error needs. -/
theorem classify_grammar_null_data :
    let v : Json := .obj [("error", .obj [("message", .str "no"), ("data", .null), ("code", .int 3),
      ("more", .bool true)]), ("params", .arr []), ("jsonrpc", .str "2.0"), ("id", .null)]
    v.IsResponse .null ∧ ∃ m, classify v = .ok m ∧ m.toJson.field? "id" = v.field? "id" ∧
      m.toJson.field? "params" = none ∧
      Option.Rel SameError (m.toJson.field? "error") (v.field? "error") := by
  intro v
  obtain ⟨hresponse, -, -, -, hwritten⟩ := classify_grammar v
  have hread : classify v = .ok (.response .null .null (some ⟨3, "no", some .null⟩)) := rfl
  obtain ⟨hsame, -, herror⟩ := hwritten _ hread rfl
  exact ⟨(hresponse .null).1 ⟨_, _, hread⟩, _, hread, hsame "id" (by decide), rfl, herror⟩

end Message

end GhostText
