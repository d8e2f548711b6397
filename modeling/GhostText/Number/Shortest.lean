import GhostText.Number.Binary64

/-!
# Shortest decimals

The decimal written for a binary64 number has the fewest digits that read back as that number, and
among those the digits nearest to it. On each grid of one to seventeen digits the two neighbours of
the number are tried; the first grid with a neighbour that reads back wins.
-/

namespace GhostText

/-- `digits * 10 ^ exponent`. -/
structure Decimal where
  digits : Nat
  exponent : Int
  deriving DecidableEq, Repr

namespace Binary64

/-- The interval that rounds to a number; its ends belong to it when the mantissa is even. -/
structure Interval where
  low : Rat
  high : Rat
  closed : Bool

def Interval.contains (i : Interval) (r : Rat) : Bool :=
  if i.closed then i.low ≤ r && r ≤ i.high else i.low < r && r < i.high

def twoTo (z : Int) : Rat := if 0 ≤ z then 2 ^ z.toNat else 1 / 2 ^ (-z).toNat

def roundingInterval (m : Nat) (e : Int) : Interval :=
  let quarter := twoTo (e - 2)
  let r := reach m e
  ⟨((4 * m - r.1 : Nat) : Rat) * quarter, ((4 * m + r.2 : Nat) : Rat) * quarter, m % 2 == 0⟩

/-- The neighbour on a grid that reads back: the nearer of two, the even one at the same
distance. -/
def onGrid? (i : Interval) (v : Rat) (exponent : Int) : Option Decimal :=
  let step := tenTo exponent
  let below := (v / step).floor.toNat
  let lower := (below : Rat) * step
  let upper := ((below + 1 : Nat) : Rat) * step
  match i.contains lower, i.contains upper with
  | true, true =>
    if v - lower < upper - v || (v - lower == upper - v && below % 2 == 0) then
      some ⟨below, exponent⟩
    else some ⟨below + 1, exponent⟩
  | true, false => some ⟨below, exponent⟩
  | false, true => some ⟨below + 1, exponent⟩
  | false, false => none

/-- How many digits a positive number of the format has before the point; not positive below one. -/
def pointPlace (v : Rat) : Int :=
  ((Nat.toDigits 10 (v * tenTo 400).floor.toNat).length : Int) - 400

/-- The shortest decimal of a finite number that is not zero. -/
def shortest (m : Nat) (e : Int) : Decimal :=
  let i := roundingInterval m e
  let v := (m : Rat) * twoTo e
  let place := pointPlace v
  ((List.range 17).findSome? fun (k : Nat) => onGrid? i v (place - (k : Int) - 1)).getD ⟨0, 0⟩

/-- Drops the zeros at the end of some digits, most significant digit first. -/
def withoutTrailingZeros (ds : List Char) : List Char :=
  (ds.reverse.dropWhile (· == '0')).reverse

/-- A decimal is written with a point and a digit after it if the power of ten of its first digit is
from -4 to 15, and with an exponent of at least two digits otherwise. -/
def decimalText (d : Decimal) : List Char :=
  let all := Nat.toDigits 10 d.digits
  let ds := withoutTrailingZeros all
  let place := (all.length : Int) + d.exponent
  if -4 < place ∧ place ≤ 16 then
    if place ≤ 0 then '0' :: '.' :: List.replicate (-place).toNat '0' ++ ds
    else
      let n := place.toNat
      let whole := ds.take n ++ List.replicate (n - ds.length) '0'
      let rest := ds.drop n
      whole ++ '.' :: (if rest.isEmpty then ['0'] else rest)
  else
    let power := place - 1
    let width := Nat.toDigits 10 power.natAbs
    let exponent := (if width.length < 2 then ['0'] else []) ++ width
    let sign := if power < 0 then '-' else '+'
    match ds with
    | [] => []
    | c :: [] => c :: 'e' :: sign :: exponent
    | c :: cs => c :: '.' :: cs ++ 'e' :: sign :: exponent

/-- How a finite number is written. -/
def finiteText (negative : Bool) (m : Nat) (e : Int) : List Char :=
  let body := if m = 0 then ['0', '.', '0'] else decimalText (shortest m e)
  if negative then '-' :: body else body

/-- A number as text, with given words for what is not finite. -/
def text (nanWord infinityWord : String) : Binary64 → String
  | .nan => nanWord
  | .infinity false => infinityWord
  | .infinity true => "-" ++ infinityWord
  | .finite negative m e => String.ofList (finiteText negative m e)

end Binary64

end GhostText
