import GhostText.Fault

/-!
# Reading a value as something else

The whole number a value stands for, its items, and the order of two values, each with the fault
that says why there is none.
-/

namespace GhostText.Json

/-- A number without its fraction. -/
def truncate : Binary64 → Except Fault Int
  | .nan => .error .nanAsInteger
  | .infinity _ => .error .infinityAsInteger
  | .finite negative m e =>
    let s := Binary64.scale m 1 (-e)
    let n := ((s.1 / s.2 : Nat) : Int)
    .ok (if negative then -n else n)

def toInteger : Json → Except Fault Int
  | .int n => .ok n
  | .bool b => .ok (if b then 1 else 0)
  | .float x => truncate x
  | .str s =>
    match Text.readInteger s with
    | .ok n => .ok n
    | .error .notInteger => .error (.notInteger s)
    | .error (.tooManyDigits n) => .error (.tooManyDigits n)
  | v => .error (.noIntegerValue v.kindName)

@[simp] theorem toInteger_int (n : Int) : toInteger (.int n) = .ok n := rfl

/-- A whole number, negative ones taken for zero. -/
def toNatural (v : Json) : Except Fault Nat := v.toInteger.map Int.toNat

/-- A whole number where the value counts as true, else zero. -/
def integerOrZero (v : Json) : Except Fault Int := if v.truthy then v.toInteger else .ok 0

/-- The items of an array, the characters of a text, the keys of an object. -/
def items : Json → Except Fault (List Json)
  | .arr xs => .ok xs
  | .str s => .ok (s.toList.map fun c => .str (String.singleton c))
  | .obj fields => .ok (fields.map fun f => .str f.1)
  | v => .error (.notIterable v.kindName)

/-- The items where the value counts as true, else none. -/
def itemsOrNone (v : Json) : Except Fault (List Json) := if v.truthy then v.items else .ok []

mutual

/-- The order of numbers, texts and arrays; arrays are compared item by item. -/
def compare (op : Operator) : Json → Json → Except Fault Bool
  | .str s, .str t =>
    .ok (match op with
      | .less => s < t
      | .lessEqual => s ≤ t
      | .greater => t < s
      | .greaterEqual => t ≤ s)
  | .arr xs, .arr ys => compareItems op xs ys
  | v, w =>
    match v.size?, w.size? with
    | some s, some t =>
      .ok (match op with
        | .less => s.less t
        | .lessEqual => s.less t || s.same t
        | .greater => t.less s
        | .greaterEqual => t.less s || s.same t)
    | _, _ => .error (.notOrdered op v.kindName w.kindName)

/-- The first items that differ decide, else the lengths. -/
def compareItems (op : Operator) : List Json → List Json → Except Fault Bool
  | [], ys =>
    .ok (match op with
      | .less => !ys.isEmpty
      | .lessEqual => true
      | .greater => false
      | .greaterEqual => ys.isEmpty)
  | _ :: _, [] =>
    .ok (match op with
      | .less => false
      | .lessEqual => false
      | .greater => true
      | .greaterEqual => true)
  | x :: xs, y :: ys => if x.same y then compareItems op xs ys else compare op x y

end

end GhostText.Json
