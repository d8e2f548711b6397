import GhostText.Text.Quoted

/-!
# UTF-8

Texts as bytes and bytes as texts. Decoding cuts the bytes into fragments: each is a character or a
damaged run, which is the longest start of a character that is there, or one byte that starts none.
Reading with replacement puts U+FFFD for every damaged run; strict reading stops at the first.
-/

namespace GhostText.Text.Utf8

def encode (cs : List Char) : List UInt8 := cs.flatMap String.utf8EncodeChar

def encodeString (s : String) : List UInt8 := encode s.toList

/-- Why a run of bytes is no character. -/
inductive Damage where
  | badStart
  | badContinuation
  | cutOff
  deriving DecidableEq, Repr

inductive Fragment where
  | char (c : Char)
  | damaged (bytes : List UInt8) (why : Damage)
  deriving DecidableEq, Repr

/-- A character of which `seen` was read and `more` bytes are missing. The next one lies between
`low` and `high`, which shut out overlong forms, surrogates and numbers above U+10FFFF. -/
structure Open where
  more : Nat
  low : Nat
  high : Nat
  value : Nat
  seen : List UInt8

/-- What a byte between two characters does. -/
inductive Start where
  | char (c : Char)
  | opens (o : Open)
  | none

def start (b : UInt8) : Start :=
  let n := b.toNat
  if n < 0x80 then .char (Char.ofNat n)
  else if n < 0xc2 then .none
  else if n < 0xe0 then .opens ⟨0, 0x80, 0xbf, n - 0xc0, [b]⟩
  else if n < 0xf0 then
    .opens ⟨1, if n = 0xe0 then 0xa0 else 0x80, if n = 0xed then 0x9f else 0xbf, n - 0xe0, [b]⟩
  else if n < 0xf5 then
    .opens ⟨2, if n = 0xf0 then 0x90 else 0x80, if n = 0xf4 then 0x8f else 0xbf, n - 0xf0, [b]⟩
  else .none

/-- Reads on from the middle of a character, or from between two. In `Open`, `more` counts the bytes
missing after the next one. -/
def fragmentsFrom : Option Open → List UInt8 → List Fragment
  | none, [] => []
  | some o, [] => [.damaged o.seen .cutOff]
  | none, b :: bs =>
    match start b with
    | .char c => .char c :: fragmentsFrom none bs
    | .opens o => fragmentsFrom (some o) bs
    | .none => .damaged [b] .badStart :: fragmentsFrom none bs
  | some o, b :: bs =>
    if o.low ≤ b.toNat ∧ b.toNat ≤ o.high then
      let value := 64 * o.value + b.toNat % 64
      match o.more with
      | 0 => .char (Char.ofNat value) :: fragmentsFrom none bs
      | k + 1 => fragmentsFrom (some ⟨k, 0x80, 0xbf, value, o.seen ++ [b]⟩) bs
    else
      .damaged o.seen .badContinuation ::
        match start b with
        | .char c => .char c :: fragmentsFrom none bs
        | .opens o => fragmentsFrom (some o) bs
        | .none => .damaged [b] .badStart :: fragmentsFrom none bs

def fragments (bs : List UInt8) : List Fragment := fragmentsFrom none bs

def Fragment.replaced : Fragment → Char
  | .char c => c
  | .damaged _ _ => Char.ofNat 0xfffd

/-- Reading with replacement never fails. -/
def decode (bs : List UInt8) : List Char := (fragments bs).map Fragment.replaced

/-- The first damaged run and where it stands. -/
structure DecodeFault where
  offset : Nat
  bytes : List UInt8
  why : Damage
  deriving DecidableEq, Repr

def strictFrom (offset : Nat) : List Fragment → Except DecodeFault (List Char)
  | [] => .ok []
  | .char c :: fs => (strictFrom (offset + (String.utf8EncodeChar c).length) fs).map (c :: ·)
  | .damaged bytes why :: _ => .error ⟨offset, bytes, why⟩

def decodeStrict (bs : List UInt8) : Except DecodeFault (List Char) := strictFrom 0 (fragments bs)

def Damage.message : Damage → String
  | .badStart => "invalid start byte"
  | .badContinuation => "invalid continuation byte"
  | .cutOff => "unexpected end of data"

def DecodeFault.message (f : DecodeFault) : String :=
  let where_ :=
    match f.bytes with
    | [b] => "byte 0x" ++ String.ofList (hex 2 b.toNat) ++ " in position " ++ toString f.offset
    | bs => "bytes in position " ++ toString f.offset ++ "-" ++
        toString (f.offset + bs.length - 1)
  "'utf-8' codec can't decode " ++ where_ ++ ": " ++ f.why.message

end GhostText.Text.Utf8
