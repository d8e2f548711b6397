import GhostText.Number.Binary64

/-!
# JSON values

Values with exact integers, binary64 numbers and objects that keep the order of their keys. A key
put a second time keeps its place and takes the new value. Values are compared by what they denote:
numbers by size, the truth values being 1 and 0, and objects without regard to order. `NaN` denotes
nothing that equals itself, and that is so inside an array or an object too, whether or not the two
values compared are one and the same object of a memory.
-/

namespace GhostText

inductive Json where
  | null
  | bool (b : Bool)
  | int (n : Int)
  | float (x : Binary64)
  | str (s : String)
  | arr (items : List Json)
  | obj (fields : List (String × Json))
  deriving Inhabited, Repr

/-- The members of an object, in order. -/
abbrev Fields := List (String × Json)

namespace Fields

/-- Puts a value under a key: in place if the key is there, else at the end. -/
def put (key : String) (value : Json) : Fields → Fields
  | [] => [(key, value)]
  | (k, v) :: rest => if k = key then (key, value) :: rest else (k, v) :: put key value rest

def remove (key : String) (fields : Fields) : Fields := fields.filter fun f => f.1 != key

/-- An object written with repeated keys. -/
def ofPairs (pairs : List (String × Json)) : Fields := pairs.foldl (fun fs p => put p.1 p.2 fs) []

def keys (fields : Fields) : List String := fields.map Prod.fst

@[simp] theorem lookup_put_self (key : String) (value : Json) (fields : Fields) :
    List.lookup key (put key value fields) = some value := by
  induction fields with
  | nil => simp [put]
  | cons f rest ih =>
    obtain ⟨k, v⟩ := f
    by_cases h : k = key
    · simp [put, h]
    · have : (key == k) = false := by simpa using fun e : key = k => h e.symm
      simp [put, h, List.lookup_cons, this, ih]

theorem lookup_put_other {key other : String} (h : other ≠ key) (value : Json) (fields : Fields) :
    List.lookup other (put key value fields) = List.lookup other fields := by
  induction fields with
  | nil =>
    have : (other == key) = false := by simpa using h
    simp [put, List.lookup_cons, this]
  | cons f rest ih =>
    obtain ⟨k, v⟩ := f
    by_cases hk : k = key
    · subst hk
      have : (other == k) = false := by simpa using h
      simp [put, List.lookup_cons, this]
    · by_cases ho : other = k
      · subst ho; simp [put, hk]
      · have : (other == k) = false := by simpa using ho
        simp [put, hk, List.lookup_cons, this, ih]

end Fields

namespace Json

/-- The members of an object; anything else has none. -/
def fields : Json → Fields
  | .obj fs => fs
  | _ => []

/-- The member of an object under a key. -/
def field? (key : String) (v : Json) : Option Json := v.fields.lookup key

/-- The member under a key, null where there is none. -/
def fieldD (key : String) (v : Json) : Json := (v.field? key).getD .null

def isObject : Json → Bool
  | .obj _ => true
  | _ => false

def isText : Json → Bool
  | .str _ => true
  | _ => false

/-- An integer, the truth values excluded. -/
def isInteger : Json → Bool
  | .int _ => true
  | _ => false

def isNull : Json → Bool
  | .null => true
  | _ => false

/-- An array or an object. -/
def isStructured : Json → Bool
  | .arr _ => true
  | .obj _ => true
  | _ => false

/-- Null, false, zero and what is empty count as false. -/
def truthy : Json → Bool
  | .null => false
  | .bool b => b
  | .int n => n != 0
  | .float (.finite _ m _) => m != 0
  | .float _ => true
  | .str s => !s.isEmpty
  | .arr items => !items.isEmpty
  | .obj fields => !fields.isEmpty

/-- The value itself if it counts as true, else the other one. -/
def orElse (v other : Json) : Json := if v.truthy then v else other

/-- The size of a number, as far as it has one. -/
inductive Size where
  | nan
  | infinity (negative : Bool)
  | exact (r : Rat)

def size? : Json → Option Size
  | .bool b => some (.exact (if b then 1 else 0))
  | .int n => some (.exact n)
  | .float .nan => some .nan
  | .float (.infinity s) => some (.infinity s)
  | .float x => some (.exact (x.toRat?.getD 0))
  | _ => none

def Size.same : Size → Size → Bool
  | .infinity s, .infinity t => s == t
  | .exact r, .exact q => r == q
  | _, _ => false

def Size.less : Size → Size → Bool
  | .exact r, .exact q => r < q
  | .infinity true, .infinity false => true
  | .infinity true, .exact _ => true
  | .exact _, .infinity false => true
  | _, _ => false

mutual

/-- Equality of what two values denote. -/
def same : Json → Json → Bool
  | .null, .null => true
  | .str s, .str t => s == t
  | .arr xs, .arr ys => sameItems xs ys
  | .obj xs, .obj ys => xs.length == ys.length && sameFields xs ys
  | v, w =>
    match v.size?, w.size? with
    | some s, some t => s.same t
    | _, _ => false

def sameItems : List Json → List Json → Bool
  | [], [] => true
  | x :: xs, y :: ys => same x y && sameItems xs ys
  | _, _ => false

/-- Every member of the first object is in the second with the same value. -/
def sameFields : List (String × Json) → List (String × Json) → Bool
  | [], _ => true
  | (k, v) :: xs, ys =>
    (match ys.lookup k with
      | some w => same v w
      | none => false) && sameFields xs ys

end

/-- The word for a kind of value used in messages. -/
def kindName : Json → String
  | .null => "NoneType"
  | .bool _ => "bool"
  | .int _ => "int"
  | .float _ => "float"
  | .str _ => "str"
  | .arr _ => "list"
  | .obj _ => "dict"

end Json

end GhostText
