import GhostText.Json.Printer
import GhostText.Json.Reader
import GhostText.Text.Blank
import GhostText.Text.Lines
import GhostText.Text.Utf8

/-!
# Frames

A frame is a header that gives the number of bytes of the body, an empty line, and the body: one
JSON value in UTF-8. The reader takes the bytes as they come, in pieces of any size. A header
without a usable length is passed over, and a body that is no JSON value is handed on as it is, so
neither stops the frames behind it.
-/

namespace GhostText.Frame

abbrev Bytes := List UInt8

/-- The end of a header: two line breaks. -/
def separator : Bytes := [13, 10, 13, 10]

def header (length : Nat) : Text := "Content-Length: ".toList ++ Nat.toDigits 10 length

def ofBody (body : Bytes) : Bytes :=
  Text.Utf8.encode (header body.length) ++ separator ++ body

def bodyOf (v : Json) : Bytes := Text.Utf8.encode (Json.write .tight v)

/-- The frame of a value. -/
def encode (v : Json) : Bytes := ofBody (bodyOf v)

/-- The frame of a value as text. -/
def text (v : Json) : String :=
  let body := Json.write .tight v
  String.ofList (header (Text.Utf8.encode body).length ++ "\r\n\r\n".toList ++ body)

/-- What the body of a frame holds. -/
inductive Body where
  | value (v : Json)
  | malformed (raw : Text) (error : Json.ReadError)

/-- Bytes that are no UTF-8 are replaced before the value is read. -/
def Body.ofBytes (bytes : Bytes) : Body :=
  let raw := Text.Utf8.decode bytes
  match Json.read raw with
  | .ok v => .value v
  | .error e => .malformed raw e

/-- The length given by the first line of a header that has the field, if it is a number of bytes.
Bytes outside ASCII count for nothing. -/
def lengthIn : List Text → Option Nat
  | [] => none
  | l :: ls =>
    let key := Text.trim (String.ofList (l.takeWhile (· != ':')))
    if !l.contains ':' || Text.fold key != "content-length" then lengthIn ls
    else
      match Text.readInteger (Text.trim (String.ofList ((l.dropWhile (· != ':')).drop 1))) with
      | .ok n => if n < 0 then none else some n.toNat
      | .error _ => none

def contentLength? (header : Bytes) : Option Nat :=
  let ascii := (header.filter fun b => b < 0x80).map fun b => Char.ofNat b.toNat
  lengthIn (Text.pieces LineBreak.crlf.text ascii)

/-- Cuts the bytes at the first end of a header. -/
def splitHeader : Bytes → Option (Bytes × Bytes)
  | [] => none
  | b :: bs =>
    if separator.isPrefixOf (b :: bs) then some ([], (b :: bs).drop separator.length)
    else (splitHeader bs).map fun r => (b :: r.1, r.2)

theorem length_splitHeader {bs head rest : Bytes} (h : splitHeader bs = some (head, rest)) :
    rest.length < bs.length := by
  induction bs generalizing head rest with
  | nil => simp [splitHeader] at h
  | cons b bs ih =>
    rw [splitHeader] at h
    split at h
    · simp only [Option.some.injEq, Prod.mk.injEq] at h
      have : separator.length = 4 := rfl
      rw [← h.2]
      simp only [List.length_drop, List.length_cons]
      omega
    · obtain ⟨r, hr, he⟩ := Option.map_eq_some_iff.1 h
      simp only [Prod.mk.injEq] at he
      have := ih (show splitHeader bs = some (r.1, r.2) from hr)
      rw [← he.2]
      simp only [List.length_cons]
      omega

/-- Bytes read so far that make no whole frame yet; the length is known once the header is read. -/
structure Reader where
  buffer : Bytes
  expected : Option Nat
  deriving DecidableEq, Repr

def Reader.fresh : Reader := ⟨[], none⟩

/-- What became complete: bodies, and the headers that were passed over. -/
structure Completed where
  bodies : List Body
  skipped : List Bytes
  reader : Reader

/-- Takes as many frames from the buffer as are whole. -/
def drain (buffer : Bytes) (expected : Option Nat) : Completed :=
  match expected with
  | none =>
    match _h : splitHeader buffer with
    | none => ⟨[], [], ⟨buffer, none⟩⟩
    | some (head, rest) =>
      match contentLength? head with
      | none =>
        let c := drain rest none
        { c with skipped := head :: c.skipped }
      | some n => drain rest (some n)
  | some n =>
    if buffer.length < n then ⟨[], [], ⟨buffer, some n⟩⟩
    else
      let c := drain (buffer.drop n) none
      { c with bodies := Body.ofBytes (buffer.take n) :: c.bodies }
termination_by 2 * buffer.length + expected.toList.length
decreasing_by
  · have := length_splitHeader ‹_›
    simp only [Option.toList_none, List.length_nil]
    omega
  · have := length_splitHeader ‹_›
    simp only [Option.toList_none, Option.toList_some, List.length_nil, List.length_cons]
    omega
  · simp only [Option.toList_none, Option.toList_some, List.length_nil, List.length_cons,
      List.length_drop]
    omega

/-- Reads on with more bytes. -/
def Reader.feed (r : Reader) (bytes : Bytes) : Completed := drain (r.buffer ++ bytes) r.expected

/-- The bodies of all whole frames; the rest of the bytes is dropped. -/
def decodeAll (bytes : Bytes) : List Body := (Reader.fresh.feed bytes).bodies

end GhostText.Frame
