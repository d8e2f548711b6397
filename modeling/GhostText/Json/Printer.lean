import GhostText.Json.Basic
import GhostText.Number.Shortest
import GhostText.Text.Digit
import GhostText.Text.Quoted

/-!
# Writing JSON

Two layouts. A line has all on one line, with or without spaces after the separators; frames carry
the tight line. A page has every item on a line of its own, indented by two spaces, with the keys of
an object in the order of their code points; the settings file is such a page.
-/

namespace GhostText.Json

/-- The gaps after a comma and after a colon, and whether only ASCII is written. -/
structure Style where
  afterComma : List Char
  afterColon : List Char
  ascii : Bool

def Style.tight : Style := ⟨[], [], false⟩
def Style.spaced : Style := ⟨[' '], [' '], false⟩

/-- The numeric escape of one code unit. -/
def escapeUnit (n : Nat) : List Char := '\\' :: 'u' :: Text.hex 4 n

/-- The numeric escape of a character, in two parts above U+FFFF. -/
def escapeNumeric (c : Char) : List Char :=
  let n := c.toNat
  if n < 0x10000 then escapeUnit n
  else
    let m := n - 0x10000
    escapeUnit (0xd800 + m / 1024) ++ escapeUnit (0xdc00 + m % 1024)

def writeChar (ascii : Bool) (c : Char) : List Char :=
  if c = '"' then ['\\', '"']
  else if c = '\\' then ['\\', '\\']
  else if c = '\n' then ['\\', 'n']
  else if c = '\r' then ['\\', 'r']
  else if c = '\t' then ['\\', 't']
  else if c.toNat = 8 then ['\\', 'b']
  else if c.toNat = 12 then ['\\', 'f']
  else if c.toNat < 0x20 then escapeNumeric c
  else if ascii && 0x7e < c.toNat then escapeNumeric c
  else [c]

def writeText (ascii : Bool) (s : String) : List Char :=
  '"' :: s.toList.flatMap (writeChar ascii) ++ ['"']

def writeFloat (x : Binary64) : List Char := (x.text "NaN" "Infinity").toList

def writeScalar (ascii : Bool) : Json → List Char
  | .null => "null".toList
  | .bool true => "true".toList
  | .bool false => "false".toList
  | .int n => Text.writeInteger n
  | .float x => writeFloat x
  | .str s => writeText ascii s
  | _ => []

mutual

def write (st : Style) : Json → List Char
  | .arr items => '[' :: writeItems st items ++ [']']
  | .obj fields => '{' :: writeMembers st fields ++ ['}']
  | .null => writeScalar st.ascii .null
  | .bool b => writeScalar st.ascii (.bool b)
  | .int n => writeScalar st.ascii (.int n)
  | .float x => writeScalar st.ascii (.float x)
  | .str s => writeScalar st.ascii (.str s)

def writeItems (st : Style) : List Json → List Char
  | [] => []
  | [v] => write st v
  | v :: w :: rest => write st v ++ ',' :: st.afterComma ++ writeItems st (w :: rest)

def writeMembers (st : Style) : List (String × Json) → List Char
  | [] => []
  | [(k, v)] => writeText st.ascii k ++ ':' :: st.afterColon ++ write st v
  | (k, v) :: f :: rest =>
    writeText st.ascii k ++ ':' :: st.afterColon ++ write st v ++ ',' :: st.afterComma ++
      writeMembers st (f :: rest)

end

/-- A value on one line. -/
def line (st : Style) (v : Json) : String := String.ofList (write st v)

def sortFields (fields : Fields) : Fields := fields.mergeSort fun f g => f.1 ≤ g.1

mutual

/-- The same value with the members of every object in the order of their keys. -/
def sorted : Json → Json
  | .arr items => .arr (sortedItems items)
  | .obj fields => .obj (sortFields (sortedMembers fields))
  | .null => .null
  | .bool b => .bool b
  | .int n => .int n
  | .float x => .float x
  | .str s => .str s

def sortedItems : List Json → List Json
  | [] => []
  | v :: rest => sorted v :: sortedItems rest

def sortedMembers : List (String × Json) → List (String × Json)
  | [] => []
  | (k, v) :: rest => (k, sorted v) :: sortedMembers rest

end

/-- A new line at a depth of nesting. -/
def newLine (depth : Nat) : List Char := '\n' :: List.replicate (2 * depth) ' '

mutual

def writePage (depth : Nat) : Json → List Char
  | .arr [] => ['[', ']']
  | .obj [] => ['{', '}']
  | .arr (v :: rest) => '[' :: pageItems (depth + 1) (v :: rest) ++ newLine depth ++ [']']
  | .obj (f :: rest) => '{' :: pageMembers (depth + 1) (f :: rest) ++ newLine depth ++ ['}']
  | .null => writeScalar true .null
  | .bool b => writeScalar true (.bool b)
  | .int n => writeScalar true (.int n)
  | .float x => writeScalar true (.float x)
  | .str s => writeScalar true (.str s)

def pageItems (depth : Nat) : List Json → List Char
  | [] => []
  | [v] => newLine depth ++ writePage depth v
  | v :: w :: rest => newLine depth ++ writePage depth v ++ ',' :: pageItems depth (w :: rest)

def pageMembers (depth : Nat) : List (String × Json) → List Char
  | [] => []
  | [(k, v)] => newLine depth ++ writeText true k ++ ':' :: ' ' :: writePage depth v
  | (k, v) :: f :: rest =>
    newLine depth ++ writeText true k ++ ':' :: ' ' :: writePage depth v ++
      ',' :: pageMembers depth (f :: rest)

end

/-- A value as a page, in ASCII and with sorted keys. -/
def page (v : Json) : String := String.ofList (writePage 0 v.sorted)

end GhostText.Json
