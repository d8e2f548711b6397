/-!
# Binary64 numbers

The floating point numbers of 64 bits, held as what they denote: not a number, an infinity, or a
sign, a mantissa and a power of two. Rounding is to the nearest number, a half going to the even
mantissa, and is computed in whole numbers.
-/

namespace GhostText

/-- A finite number is `mantissa * 2 ^ exponent` with its sign. The mantissa is below `2 ^ 53`, the
exponent at least `-1074`, and above that the mantissa is at least `2 ^ 52`. -/
inductive Binary64 where
  | nan
  | infinity (negative : Bool)
  | finite (negative : Bool) (mantissa : Nat) (exponent : Int)
  deriving DecidableEq, Repr

/-- The quotient rounded to a whole number, a half going to the even one. -/
def roundDiv (num den : Nat) : Nat :=
  let q := num / den
  let r := num % den
  if den < 2 * r || (2 * r == den && q % 2 == 1) then q + 1 else q

def tenTo (z : Int) : Rat := if 0 ≤ z then 10 ^ z.toNat else 1 / 10 ^ (-z).toNat

namespace Binary64

def zero (negative : Bool) : Binary64 := .finite negative 0 (-1074)

/-- The quotient over `2 ^ exponent`, as numerator and denominator. -/
def scale (num den : Nat) (exponent : Int) : Nat × Nat :=
  if 0 ≤ exponent then (num, den * Nat.pow 2 exponent.toNat)
  else (num * Nat.pow 2 (-exponent).toNat, den)

/-- The number nearest to a quotient of naturals. The first guess of the exponent is at most one too
small; a mantissa that rounds up to `2 ^ 53` takes the next exponent. -/
def nearest (negative : Bool) (num den : Nat) : Binary64 :=
  if num = 0 then zero negative
  else
    let guess := max ((num.log2 : Int) - den.log2 - 53) (-1074)
    let s := scale num den guess
    let exponent := if s.1 / s.2 < Nat.pow 2 53 then guess else guess + 1
    let t := scale num den exponent
    let m := roundDiv t.1 t.2
    let r := if m = Nat.pow 2 53 then (Nat.pow 2 52, exponent + 1) else (m, exponent)
    if 971 < r.2 then .infinity negative else .finite negative r.1 r.2

def ofRat (r : Rat) : Binary64 := nearest (decide (r < 0)) r.num.natAbs r.den

/-- The number nearest to `digits * 10 ^ exponent`. Exponents far outside the range are settled
before the power is formed. -/
def ofDecimal (negative : Bool) (digits : Nat) (exponent : Int) : Binary64 :=
  let size := ((Nat.toDigits 10 digits).length : Int) + exponent
  if digits = 0 || size < -330 then zero negative
  else if 320 < size then .infinity negative
  else if 0 ≤ exponent then nearest negative (digits * Nat.pow 10 exponent.toNat) 1
  else nearest negative digits (Nat.pow 10 (-exponent).toNat)

/-- What a finite number denotes. -/
def toRat? : Binary64 → Option Rat
  | .nan => none
  | .infinity _ => none
  | .finite negative m e =>
    let s := scale m 1 (-e)
    let r := mkRat (s.1 : Int) s.2
    some (if negative then -r else r)

/-- Half the way to the next number below and above, in quarters of the last place: the step below
is half as long where the mantissa is least. -/
def reach (m : Nat) (e : Int) : Nat × Nat :=
  (if m = Nat.pow 2 52 ∧ -1074 < e then 1 else 2, 2)

/-- The sum with a whole number. -/
def addInt (x : Binary64) (n : Int) : Binary64 :=
  match x.toRat? with
  | none => x
  | some r => if r = 0 ∧ n = 0 then zero false else ofRat (r + n)

end Binary64

end GhostText
