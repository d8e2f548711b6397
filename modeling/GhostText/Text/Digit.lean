import GhostText.Text.Blank

/-!
# Decimal digits and written integers

A written integer is an optional sign and decimal digits of any script, single underscores allowed
between two digits, blanks allowed around the whole. At most `digitLimit` digits are read.
-/

namespace GhostText.Text

/-- The digit zero of every script that writes decimal numbers; its nine successors follow it. -/
def zeroDigits : List Nat :=
  [0x0030, 0x0660, 0x06f0, 0x07c0, 0x0966, 0x09e6, 0x0a66, 0x0ae6, 0x0b66, 0x0be6, 0x0c66, 0x0ce6,
   0x0d66, 0x0de6, 0x0e50, 0x0ed0, 0x0f20, 0x1040, 0x1090, 0x17e0, 0x1810, 0x1946, 0x19d0, 0x1a80,
   0x1a90, 0x1b50, 0x1bb0, 0x1c40, 0x1c50, 0xa620, 0xa8d0, 0xa900, 0xa9d0, 0xa9f0, 0xaa50, 0xabf0,
   0xff10, 0x104a0, 0x10d30, 0x11066, 0x110f0, 0x11136, 0x111d0, 0x112f0, 0x11450, 0x114d0,
   0x11650, 0x116c0, 0x11730, 0x118e0, 0x11950, 0x11c50, 0x11d50, 0x11da0, 0x16a60, 0x16ac0,
   0x16b50, 0x1d7ce, 0x1d7d8, 0x1d7e2, 0x1d7ec, 0x1d7f6, 0x1e140, 0x1e2f0, 0x1e950, 0x1fbf0]

def digitValue? (c : Char) : Option Nat :=
  (zeroDigits.find? fun z => z ≤ c.toNat && c.toNat < z + 10).map (c.toNat - ·)

/-- The most digits a written integer may have. -/
def digitLimit : Nat := 4300

/-- Blanks that may stand around a written integer: all but the information separators. -/
def isNumberBlank (c : Char) : Bool :=
  isBlank c && !(0x1c ≤ c.toNat && c.toNat ≤ 0x1f)

/-- Why a text is not a written integer. -/
inductive IntegerFault where
  | notInteger
  | tooManyDigits (count : Nat)
  deriving DecidableEq, Repr

/-- Underscores stand singly, with a digit on both sides. -/
def wellJoined : List Char → Bool
  | [] => true
  | '_' :: _ => false
  | _ :: '_' :: cs => !cs.isEmpty && wellJoined cs
  | _ :: cs => wellJoined cs

def isDigitOrJoint (c : Char) : Bool := c = '_' || (digitValue? c).isSome

/-- The number whose digits, most significant first, are given. -/
def ofDigits (ds : List Nat) : Nat := ds.foldl (fun n d => 10 * n + d) 0

/-- An integer in decimal digits, a minus sign before a negative one. -/
def writeInteger (n : Int) : List Char :=
  let ds := Nat.toDigits 10 n.natAbs
  if n < 0 then '-' :: ds else ds

/-- Reads a whole text as an integer. -/
def readInteger (s : String) : Except IntegerFault Int :=
  let body := trimLeft isNumberBlank s.toList
  let (negative, digits) :=
    match body with
    | '-' :: r => (true, r)
    | '+' :: r => (false, r)
    | r => (false, r)
  let run := digits.takeWhile isDigitOrJoint
  let ds := run.filterMap digitValue?
  if run.isEmpty || !wellJoined run then .error .notInteger
  else if digitLimit < ds.length then .error (.tooManyDigits ds.length)
  else if (digits.dropWhile isDigitOrJoint).all isNumberBlank then
    .ok (if negative then -(ofDigits ds : Int) else (ofDigits ds : Int))
  else .error .notInteger

end GhostText.Text
