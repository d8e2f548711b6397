import GhostText.Text.Lines

/-!
# UTF-16 code units

Columns count the code units of UTF-16: two for a character above U+FFFF, one for any other.
-/

namespace GhostText.Text

def charUnits (c : Char) : Nat := if c.toNat ≤ 0xffff then 1 else 2

def units : Text → Nat
  | [] => 0
  | c :: t => charUnits c + units t

@[simp] theorem units_nil : units [] = 0 := rfl
@[simp] theorem units_cons (c : Char) (t : Text) : units (c :: t) = charUnits c + units t := rfl

/-- The number of characters that fit into a number of units. A count that ends inside a character
stops before it. -/
def indexOfUnits : Text → Nat → Nat
  | [], _ => 0
  | c :: t, n => if n < charUnits c then 0 else indexOfUnits t (n - charUnits c) + 1

@[simp] theorem indexOfUnits_nil (n : Nat) : indexOfUnits [] n = 0 := rfl

end GhostText.Text
