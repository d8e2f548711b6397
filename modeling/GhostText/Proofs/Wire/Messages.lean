import GhostText.Proofs.Json.RoundTrip
import GhostText.Proofs.Wire.Frames
import GhostText.Wire.Message

/-!
# Messages over the wire

A well-formed message is classified as itself, and its value is plain. So messages that are written
one after another are read back in order, with nothing left over, wherever the bytes are cut.
-/

namespace GhostText

namespace Json

@[simp] theorem field?_obj (key : String) (fields : Fields) :
    field? key (.obj fields) = fields.lookup key := rfl

@[simp] theorem fieldD_obj (key : String) (fields : Fields) :
    fieldD key (.obj fields) = (fields.lookup key).getD .null := rfl

@[simp] theorem isObject_obj (fields : Fields) : (obj fields).isObject = true := rfl

@[simp] theorem isText_str (s : String) : (str s).isText = true := rfl

@[simp] theorem isNull_eq_true_iff (v : Json) : v.isNull = true ↔ v = .null := by
  cases v <;> simp [isNull]

end Json

namespace Message

/-- Null where there are no parameters, else an array or an object. -/
def isParams (v : Json) : Bool := v.isNull || v.isStructured

/-- What a side may send, with plain values in it. An error stands in place of a result, and its
data may be absent. -/
def isWellFormed : Message → Bool
  | .request id _ params => isId id && id.isPlain && isParams params && params.isPlain
  | .response id result none => isId id && id.isPlain && result.isPlain
  | .response id result (some e) =>
    isId id && id.isPlain && result.isNull && (Json.int e.code).isPlain && e.data.all Json.isPlain
  | .notification _ params => isParams params && params.isPlain

/-- An error that is written is read as itself. -/
theorem errorOf?_toJson (e : ResponseError) : errorOf? e.toJson = some e := by
  obtain ⟨code, message, data⟩ := e
  cases data with
  | none => rfl
  | some d => rfl

/-- Parameters are written unless they are null, and read as null where they were not written. -/
theorem lookup_paramsField {params : Json} (h : isParams params) :
    ((paramsField params).lookup "params").any (!·.isStructured) = false ∧
      ((paramsField params).lookup "params").getD .null = params := by
  by_cases hn : params = .null
  · simp [paramsField, hn]
  · have hs : params.isStructured := by simpa [isParams, hn] using h
    simp [paramsField, hn, hs]

theorem lookup_paramsField_other {key : String} (h : key ≠ "params") (params : Json) :
    (paramsField params).lookup key = none := by
  have hk : (key == "params") = false := beq_false_of_ne h
  by_cases hn : params = .null
  · simp [paramsField, hn]
  · simp [paramsField, hn, List.lookup_cons, hk]

/-- The value of a well-formed message is the message again. -/
theorem classify_toJson {m : Message} (h : m.isWellFormed) : classify m.toJson = .ok m := by
  cases m with
  | request id method params =>
    simp only [isWellFormed, Bool.and_eq_true] at h
    obtain ⟨⟨⟨hi, -⟩, hs⟩, -⟩ := h
    simp [classify, toJson, List.lookup_cons, hi, lookup_paramsField hs, lookup_paramsField_other]
  | response id result error =>
    cases error with
    | none =>
      simp only [isWellFormed, Bool.and_eq_true] at h
      obtain ⟨⟨hi, -⟩, -⟩ := h
      simp [classify, toJson, List.lookup_cons, hi]
    | some e =>
      simp only [isWellFormed, Bool.and_eq_true, Json.isNull_eq_true_iff] at h
      obtain ⟨⟨⟨⟨hi, -⟩, hr⟩, -⟩, -⟩ := h
      simp [classify, toJson, List.lookup_cons, hi, hr, errorOf?_toJson]
  | notification method params =>
    simp only [isWellFormed, Bool.and_eq_true] at h
    obtain ⟨hs, -⟩ := h
    simp [classify, toJson, List.lookup_cons, lookup_paramsField hs, lookup_paramsField_other]

/-- Any value at all makes the answer to a numbered request. -/
theorem classify_answer (id : Nat) (result : Json) :
    classify (response (.int id) result none).toJson = .ok (response (.int id) result none) := by
  have hid : isId (.int id) = true := rfl
  simp [classify, toJson, List.lookup_cons, hid]

/-- A notification is read as it was written, whatever values its parameters have. -/
theorem classify_notification (method : String) (fields : Fields) :
    classify (notification method (.obj fields)).toJson =
      .ok (.notification method (.obj fields)) := by
  have hparams : isParams (.obj fields) := rfl
  simp [classify, toJson, List.lookup_cons, lookup_paramsField hparams, lookup_paramsField_other]

theorem isPlain_error {e : ResponseError} (hc : (Json.int e.code).isPlain)
    (hd : e.data.all Json.isPlain) : e.toJson.isPlain := by
  obtain ⟨code, message, data⟩ := e
  simp only [Json.isPlain, decide_eq_true_eq] at hc
  cases data with
  | none => simp [ResponseError.toJson, Json.isPlain, Json.arePlainMembers, Fields.keys, hc]
  | some d =>
    have hd : d.isPlain := hd
    simp [ResponseError.toJson, Json.isPlain, Json.arePlainMembers, Fields.keys, hc, hd]

theorem arePlainMembers_paramsField {params : Json} (h : params.isPlain) :
    Json.arePlainMembers (paramsField params) := by
  by_cases hn : params = .null
  · simp [paramsField, hn, Json.arePlainMembers]
  · simp [paramsField, hn, Json.arePlainMembers, h]

theorem keys_paramsField (params : Json) :
    (paramsField params).map Prod.fst = [] ∨ (paramsField params).map Prod.fst = ["params"] := by
  by_cases hn : params = .null
  · simp [paramsField, hn]
  · simp [paramsField, hn]

/-- The value of a well-formed message is plain. -/
theorem isPlain_toJson {m : Message} (h : m.isWellFormed) : m.toJson.isPlain := by
  cases m with
  | request id method params =>
    simp only [isWellFormed, Bool.and_eq_true] at h
    obtain ⟨⟨⟨-, hi⟩, -⟩, hp⟩ := h
    have hm := arePlainMembers_paramsField hp
    rcases keys_paramsField params with hk | hk
    · simp [toJson, Json.isPlain, Json.arePlainMembers, Fields.keys, hk, hm, hi]
    · simp [toJson, Json.isPlain, Json.arePlainMembers, Fields.keys, hk, hm, hi]
  | response id result error =>
    cases error with
    | none =>
      simp only [isWellFormed, Bool.and_eq_true] at h
      obtain ⟨⟨-, hi⟩, hr⟩ := h
      simp [toJson, Json.isPlain, Json.arePlainMembers, Fields.keys, hi, hr]
    | some e =>
      simp only [isWellFormed, Bool.and_eq_true] at h
      obtain ⟨⟨⟨⟨-, hi⟩, -⟩, hc⟩, hd⟩ := h
      simp [toJson, Json.isPlain, Json.arePlainMembers, Fields.keys, hi, isPlain_error hc hd]
  | notification method params =>
    simp only [isWellFormed, Bool.and_eq_true] at h
    obtain ⟨-, hp⟩ := h
    have hm := arePlainMembers_paramsField hp
    rcases keys_paramsField params with hk | hk
    · simp [toJson, Json.isPlain, Json.arePlainMembers, Fields.keys, hk, hm]
    · simp [toJson, Json.isPlain, Json.arePlainMembers, Fields.keys, hk, hm]

end Message

namespace Frame

def Body.message? : Body → Option Message
  | .value v => (Message.classify v).toOption
  | .malformed _ _ => none

/-- A plain value is read from its body as itself. -/
theorem Body.ofBytes_bodyOf {v : Json} (h : v.isPlain) : Body.ofBytes (bodyOf v) = .value v := by
  simp only [Body.ofBytes, bodyOf, Text.Utf8.decode_encode, Json.read_write Json.blank_tight h]

/-- A well-formed message is read from its body as itself. -/
theorem message?_ofBytes {m : Message} (h : m.isWellFormed) :
    (Body.ofBytes (bodyOf m.toJson)).message? = some m := by
  rw [Body.ofBytes_bodyOf (Message.isPlain_toJson h), Body.message?, Message.classify_toJson h]
  rfl

/-- Messages written one after another are read back in order wherever their bytes are cut, and
nothing is passed over or stays behind. -/
theorem Reader.answers_encode {ms : List Message} (h : ∀ m ∈ ms, m.isWellFormed)
    (hf : ∀ m ∈ ms, Fits (bodyOf m.toJson)) {pieces : List Bytes}
    (hp : pieces.flatten = (ms.map fun m => encode m.toJson).flatten) :
    ((fresh.answers pieces).flatMap Completed.bodies).map Body.message? = ms.map some ∧
      (fresh.answers pieces).flatMap Completed.skipped = [] ∧ fresh.after pieces = fresh := by
  have hd := drain_frames (List.forall_mem_map.2 hf) []
  have hw : drain [] none = ⟨[], [], fresh⟩ := drain_waiting rfl
  rw [List.append_nil, List.map_map, hw] at hd
  have hc := collected_eq_feed Reachable.fresh.settled pieces
  rw [hp] at hc
  have he := hc.trans hd
  have hm : ((ms.map fun m => bodyOf m.toJson).map Body.ofBytes).map Body.message? =
      ms.map some := by
    rw [List.map_map, List.map_map]
    exact List.map_congr_left fun m hm => message?_ofBytes (h m hm)
  refine ⟨?_, congrArg Completed.skipped he, congrArg Completed.reader he⟩
  rw [← hm, ← List.append_nil (List.map Body.ofBytes _)]
  exact congrArg (fun c => c.bodies.map Body.message?) he

/-- A request without parameters, an error with data outside ASCII and a notification, read one byte
at a time. -/
theorem Reader.answers_encode_single_bytes :
    let ms : List Message :=
      [.request (.int 1) "shutdown" .null,
        .response (.str "a") .null (some ⟨-32603, "no \"é\"\n", some (.arr [.bool true, .int 7])⟩),
        .notification "exit" (.obj [("x", .null)])]
    let pieces := (ms.map fun m => encode m.toJson).flatten.map fun b => [b]
    (∀ m ∈ ms, m.isWellFormed) ∧ (∀ m ∈ ms, Fits (bodyOf m.toJson)) ∧
      pieces.flatten = (ms.map fun m => encode m.toJson).flatten ∧
      ((fresh.answers pieces).flatMap Completed.bodies).map Body.message? = ms.map some ∧
      (fresh.answers pieces).flatMap Completed.skipped = [] ∧ fresh.after pieces = fresh := by
  intro ms pieces
  have hw : ∀ m ∈ ms, m.isWellFormed := by decide +kernel
  have hf : ∀ m ∈ ms, Fits (bodyOf m.toJson) := by decide +kernel
  have hp : pieces.flatten = (ms.map fun m => encode m.toJson).flatten := List.flatMap_singleton' _
  exact ⟨hw, hf, hp, answers_encode hw hf hp⟩

end Frame

end GhostText
