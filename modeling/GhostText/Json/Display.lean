import GhostText.Json.Basic
import GhostText.Number.Shortest
import GhostText.Text.Digit
import GhostText.Text.Quoted

/-!
# Values shown in messages

A text is shown as it is when it stands alone, and quoted inside an array or an object or where the
quotes are asked for.
-/

namespace GhostText.Json

def floatShown (x : Binary64) : String := x.text "nan" "inf"

mutual

/-- A value with its texts quoted. -/
def quotedText : Json → String
  | .null => "None"
  | .bool true => "True"
  | .bool false => "False"
  | .int n => String.ofList (Text.writeInteger n)
  | .float x => floatShown x
  | .str s => Text.quoted s
  | .arr items => "[" ++ ", ".intercalate (quotedItems items) ++ "]"
  | .obj fields => "\x7b" ++ ", ".intercalate (quotedFields fields) ++ "\x7d"

def quotedItems : List Json → List String
  | [] => []
  | x :: xs => quotedText x :: quotedItems xs

def quotedFields : List (String × Json) → List String
  | [] => []
  | (k, v) :: rest => (Text.quoted k ++ ": " ++ quotedText v) :: quotedFields rest

end

/-- A value as text; a text is itself. -/
def shown : Json → String
  | .str s => s
  | v => quotedText v

/-- A value as text, empty where it counts as false. -/
def textOrEmpty (v : Json) : String := if v.truthy then v.shown else ""

/-- A value as text, with another text where it counts as false. -/
def textOr (v : Json) (other : String) : String := if v.truthy then v.shown else other

/-- A member as text, with another text where there is none. -/
def shownMember (v : Json) (key other : String) : String :=
  ((v.field? key).map shown).getD other

@[simp] theorem shown_str (s : String) : (Json.str s).shown = s := rfl

@[simp] theorem textOrEmpty_str (s : String) : (Json.str s).textOrEmpty = s := by
  by_cases h : s = ""
  · subst h; rfl
  · have hs : s.isEmpty = false := by simp [h]
    simp [textOrEmpty, truthy, hs, shown]

end GhostText.Json
