import GhostText.Text.Printable

/-!
# Quoted text and bytes

How a text or a byte string is shown inside a message: between single quotes, or between double
quotes when the text has a single quote and no double one. The quote in use and the backslash take a
backslash, line feed, carriage return and tab their letters, and what is not printable its number in
hexadecimal digits.
-/

namespace GhostText.Text

/-- The hexadecimal digits of a number, at least `width` of them. -/
def hex (width n : Nat) : List Char :=
  let ds := Nat.toDigits 16 n
  List.replicate (width - ds.length) '0' ++ ds

/-- The quote put around a text. -/
def quoteFor (hasSingle hasDouble : Bool) : Char :=
  if hasSingle && !hasDouble then '"' else '\''

def escapeChar (quote c : Char) : List Char :=
  if c = quote || c = '\\' then ['\\', c]
  else if c = '\n' then ['\\', 'n']
  else if c = '\r' then ['\\', 'r']
  else if c = '\t' then ['\\', 't']
  else if isPrintable c then [c]
  else if c.toNat < 0x100 then '\\' :: 'x' :: hex 2 c.toNat
  else if c.toNat < 0x10000 then '\\' :: 'u' :: hex 4 c.toNat
  else '\\' :: 'U' :: hex 8 c.toNat

def quoted (s : String) : String :=
  let cs := s.toList
  let q := quoteFor (cs.contains '\'') (cs.contains '"')
  String.ofList (q :: cs.flatMap (escapeChar q) ++ [q])

def escapeByte (quote : Char) (b : UInt8) : List Char :=
  let c := Char.ofNat b.toNat
  if b.toNat < 0x7f && 0x20 ≤ b.toNat || c = '\n' || c = '\r' || c = '\t' then escapeChar quote c
  else '\\' :: 'x' :: hex 2 b.toNat

/-- Bytes are shown after the letter `b`, with the bytes outside printable ASCII escaped. -/
def quotedBytes (bs : List UInt8) : String :=
  let q := quoteFor (bs.contains 0x27) (bs.contains 0x22)
  String.ofList ('b' :: q :: bs.flatMap (escapeByte q) ++ [q])

end GhostText.Text
