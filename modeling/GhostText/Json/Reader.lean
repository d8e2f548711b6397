import GhostText.Json.Basic
import GhostText.Text.Digit

/-!
# Reading JSON

A reader of one value that says where and why it stops. Beside the numbers of the standard it takes
`NaN`, `Infinity` and `-Infinity`; control characters inside a text are refused, and so are integers
of more than `Text.digitLimit` digits. A reader takes the characters still to be read and returns
what it read with the characters after it, so that the place of a fault is known from what was left.

A text holds Unicode scalar values and nothing else. An escape that names half a surrogate pair
alone is therefore read as U+FFFD; a reader whose texts may hold such a half keeps it, and fails
later, when the text is to be encoded. Nothing here says what becomes of such texts.
-/

namespace GhostText.Json

inductive ReadProblem where
  | byteOrderMark
  | expectingValue
  | extraData
  | expectingKey
  | expectingColon
  | expectingComma
  | unterminatedText
  | controlCharacter
  | badEscape
  | badUnicodeEscape
  deriving DecidableEq, Repr

/-- A fault while reading, with the characters from its place on. -/
inductive Stop where
  | here (problem : ReadProblem) (rest : List Char)
  | tooManyDigits (count : Nat)

abbrev Reading (α : Type) := Except Stop (α × List Char)

def isSpace (c : Char) : Bool := c = ' ' || c = '\t' || c = '\n' || c = '\r'

def skipSpace (cs : List Char) : List Char := cs.dropWhile isSpace

def hexValue? (c : Char) : Option Nat :=
  if c.isDigit then some (c.toNat - 48)
  else if 'a' ≤ c ∧ c ≤ 'f' then some (c.toNat - 87)
  else if 'A' ≤ c ∧ c ≤ 'F' then some (c.toNat - 55)
  else none

/-- The number written by the first four characters. -/
def hex4? : List Char → Option Nat
  | a :: b :: c :: d :: _ => do
    let a ← hexValue? a
    let b ← hexValue? b
    let c ← hexValue? c
    let d ← hexValue? d
    return 4096 * a + 256 * b + 16 * c + d
  | _ => none

def isHighSurrogate (n : Nat) : Bool := 0xd800 ≤ n && n ≤ 0xdbff

def isLowSurrogate (n : Nat) : Bool := 0xdc00 ≤ n && n ≤ 0xdfff

/-- The character of a code unit. Half a surrogate pair is none and becomes U+FFFD. -/
def unitChar (n : Nat) : Char :=
  if isHighSurrogate n || isLowSurrogate n then Char.ofNat 0xfffd else Char.ofNat n

def pairChar (high low : Nat) : Char :=
  Char.ofNat (0x10000 + 1024 * (high - 0xd800) + (low - 0xdc00))

/-- Reads a numeric escape after its `u`: the character, and how many characters of the escape
follow the backslash. Two escapes of a surrogate pair are one character. The four digits may not be
the last characters of all. -/
def unicodeEscape (cs : List Char) : Except Stop (Char × Nat) :=
  let bad (at_ : List Char) := Except.error (Stop.here .badUnicodeEscape at_)
  if (cs.drop 4).isEmpty then bad ('u' :: cs)
  else
    match hex4? cs with
    | none => bad ('u' :: cs)
    | some n =>
      match cs.drop 4 with
      | '\\' :: 'u' :: rest =>
        if isHighSurrogate n && !(rest.drop 4).isEmpty then
          match hex4? rest with
          | none => bad ('u' :: rest)
          | some m => if isLowSurrogate m then .ok (pairChar n m, 11) else .ok (unitChar n, 5)
        else .ok (unitChar n, 5)
      | _ => .ok (unitChar n, 5)

/-- Reads an escape after its backslash. -/
def escape (opening : List Char) : List Char → Except Stop (Char × Nat)
  | [] => .error (.here .unterminatedText opening)
  | '"' :: _ => .ok ('"', 1)
  | '\\' :: _ => .ok ('\\', 1)
  | '/' :: _ => .ok ('/', 1)
  | 'b' :: _ => .ok (Char.ofNat 8, 1)
  | 'f' :: _ => .ok (Char.ofNat 12, 1)
  | 'n' :: _ => .ok ('\n', 1)
  | 'r' :: _ => .ok ('\r', 1)
  | 't' :: _ => .ok ('\t', 1)
  | 'u' :: cs => unicodeEscape cs
  | cs => .error (.here .badEscape ('\\' :: cs))

/-- Reads a text after its opening quote, which stands first in `opening`; `skip` counts the
characters of an escape still to be passed over. -/
def textFrom (opening : List Char) : (skip : Nat) → List Char → Reading (List Char)
  | _, [] => .error (.here .unterminatedText opening)
  | skip + 1, _ :: cs => textFrom opening skip cs
  | 0, c :: cs =>
    if c = '"' then .ok ([], cs)
    else if c = '\\' then
      match escape opening cs with
      | .error stop => .error stop
      | .ok (d, n) => (textFrom opening n cs).map fun r => (d :: r.1, r.2)
    else if c.toNat < 0x20 then .error (.here .controlCharacter (c :: cs))
    else (textFrom opening 0 cs).map fun r => (c :: r.1, r.2)

def readText (opening cs : List Char) : Reading String :=
  (textFrom opening 0 cs).map fun r => (String.ofList r.1, r.2)

/-- The parts of a written number. -/
structure NumberParts where
  negative : Bool
  whole : List Char
  fraction : List Char
  exponent : Option Int

def digitsOf (ds : List Char) : Nat := Text.ofDigits (ds.map fun c => c.toNat - 48)

/-- The digits after a point, if there is one before a digit. -/
def fractionPart : List Char → List Char × List Char
  | '.' :: d :: rest =>
    if d.isDigit then ((d :: rest).takeWhile Char.isDigit, (d :: rest).dropWhile Char.isDigit)
    else ([], '.' :: d :: rest)
  | cs => ([], cs)

/-- The exponent after its letter, if there is one with a digit. -/
def exponentPart (cs : List Char) : Option Int × List Char :=
  match cs with
  | e :: rest =>
    if e = 'e' || e = 'E' then
      let signed :=
        match rest with
        | '-' :: r => (true, r)
        | '+' :: r => (false, r)
        | r => (false, r)
      let ds := signed.2.takeWhile Char.isDigit
      if ds.isEmpty then (none, cs)
      else
        let n := (digitsOf ds : Int)
        (some (if signed.1 then -n else n), signed.2.dropWhile Char.isDigit)
    else (none, cs)
  | [] => (none, [])

/-- The longest number at the start: no digit follows a leading zero. -/
def numberParts? (cs : List Char) : Option (NumberParts × List Char) :=
  let signed :=
    match cs with
    | '-' :: r => (true, r)
    | r => (false, r)
  let whole? :=
    match signed.2 with
    | '0' :: r => some (['0'], r)
    | c :: r =>
      if c.isDigit then some ((c :: r).takeWhile Char.isDigit, (c :: r).dropWhile Char.isDigit)
      else none
    | [] => none
  whole?.map fun whole =>
    let fraction := fractionPart whole.2
    let exponent := exponentPart fraction.2
    (⟨signed.1, whole.1, fraction.1, exponent.1⟩, exponent.2)

/-- A number without fraction and exponent is an integer. -/
def NumberParts.value (p : NumberParts) : Except Nat Json :=
  if p.fraction.isEmpty && p.exponent.isNone then
    if Text.digitLimit < p.whole.length then .error p.whole.length
    else
      let n := (digitsOf p.whole : Int)
      .ok (.int (if p.negative then -n else n))
  else
    .ok (.float (Binary64.ofDecimal p.negative (digitsOf (p.whole ++ p.fraction))
      (p.exponent.getD 0 - p.fraction.length)))

/-- The values written by a word. -/
def wordValues : List (List Char × Json) :=
  [("null".toList, .null), ("true".toList, .bool true), ("false".toList, .bool false),
    ("NaN".toList, .float .nan), ("Infinity".toList, .float (.infinity false)),
    ("-Infinity".toList, .float (.infinity true))]

/-- Reads a word or a number. -/
def readScalar (cs : List Char) : Reading Json :=
  match wordValues.find? fun w => w.1.isPrefixOf cs with
  | some w => .ok (w.2, cs.drop w.1.length)
  | none =>
    match numberParts? cs with
    | none => .error (.here .expectingValue cs)
    | some (p, rest) =>
      match p.value with
      | .ok v => .ok (v, rest)
      | .error n => .error (.tooManyDigits n)

mutual

/-- Reads the value at the start. Every value takes a character, so twice the number of characters
is enough fuel for what they hold: values may be nested to any depth. A reader that keeps a stack of
its own gives up at some depth, and what it then does is not told here. -/
def readValue : (fuel : Nat) → List Char → Reading Json
  | 0, cs => .error (.here .expectingValue cs)
  | fuel + 1, cs =>
    match cs with
    | '"' :: rest => (readText cs rest).map fun r => (.str r.1, r.2)
    | '[' :: rest =>
      match skipSpace rest with
      | ']' :: rest => .ok (.arr [], rest)
      | rest => (readItems fuel rest).map fun r => (.arr r.1, r.2)
    | '{' :: rest =>
      match skipSpace rest with
      | '}' :: rest => .ok (.obj [], rest)
      | rest => (readMembers fuel rest).map fun r => (.obj (Fields.ofPairs r.1), r.2)
    | _ => readScalar cs

/-- Reads the items of an array that has some, with the closing bracket. -/
def readItems : (fuel : Nat) → List Char → Reading (List Json)
  | 0, cs => .error (.here .expectingValue cs)
  | fuel + 1, cs =>
    match readValue fuel cs with
    | .error stop => .error stop
    | .ok (v, rest) =>
      match skipSpace rest with
      | ']' :: rest => .ok ([v], rest)
      | ',' :: rest => (readItems fuel (skipSpace rest)).map fun r => (v :: r.1, r.2)
      | rest => .error (.here .expectingComma rest)

/-- Reads the members of an object that has some, with the closing brace. -/
def readMembers : (fuel : Nat) → List Char → Reading (List (String × Json))
  | 0, cs => .error (.here .expectingKey cs)
  | fuel + 1, cs =>
    match cs with
    | '"' :: rest =>
      match readText cs rest with
      | .error stop => .error stop
      | .ok (key, rest) =>
        match skipSpace rest with
        | ':' :: rest =>
          match readValue fuel (skipSpace rest) with
          | .error stop => .error stop
          | .ok (v, rest) =>
            match skipSpace rest with
            | '}' :: rest => .ok ([(key, v)], rest)
            | ',' :: rest =>
              (readMembers fuel (skipSpace rest)).map fun r => ((key, v) :: r.1, r.2)
            | rest => .error (.here .expectingComma rest)
        | rest => .error (.here .expectingColon rest)
    | _ => .error (.here .expectingKey cs)

end

/-- Why a text is no JSON value, with the line, the column and the offset of the place. -/
inductive ReadError where
  | at (problem : ReadProblem) (line column offset : Nat)
  | tooManyDigits (count : Nat)
  deriving DecidableEq, Repr

/-- Lines and columns count from one, offsets from zero. -/
def ReadError.place (text : List Char) (problem : ReadProblem) (offset : Nat) : ReadError :=
  let before := text.take offset
  .at problem (before.count '\n' + 1) ((before.reverse.takeWhile (· != '\n')).length + 1) offset

def Stop.toError (text : List Char) : Stop → ReadError
  | .here problem rest => ReadError.place text problem (text.length - rest.length)
  | .tooManyDigits n => .tooManyDigits n

/-- Reads a text that holds one value and nothing else but space. -/
def read (text : List Char) : Except ReadError Json :=
  if text.head? = some (Char.ofNat 0xfeff) then .error (ReadError.place text .byteOrderMark 0)
  else
    match readValue (2 * text.length + 2) (skipSpace text) with
    | .error stop => .error (stop.toError text)
    | .ok (v, rest) =>
      match skipSpace rest with
      | [] => .ok v
      | rest => .error ((Stop.here .extraData rest).toError text)

def ReadProblem.message : ReadProblem → String
  | .byteOrderMark => "Unexpected UTF-8 BOM (decode using utf-8-sig)"
  | .expectingValue => "Expecting value"
  | .extraData => "Extra data"
  | .expectingKey => "Expecting property name enclosed in double quotes"
  | .expectingColon => "Expecting ':' delimiter"
  | .expectingComma => "Expecting ',' delimiter"
  | .unterminatedText => "Unterminated string starting at"
  | .controlCharacter => "Invalid control character at"
  | .badEscape => "Invalid \\escape"
  | .badUnicodeEscape => "Invalid \\uXXXX escape"

def tooManyDigitsMessage (count : Nat) : String :=
  "Exceeds the limit (" ++ toString Text.digitLimit ++
    " digits) for integer string conversion: value has " ++ toString count ++
    " digits; use sys.set_int_max_str_digits() to increase the limit"

def ReadError.message : ReadError → String
  | .at problem line column offset =>
    problem.message ++ ": line " ++ toString line ++ " column " ++ toString column ++ " (char " ++
      toString offset ++ ")"
  | .tooManyDigits n => tooManyDigitsMessage n

end GhostText.Json
