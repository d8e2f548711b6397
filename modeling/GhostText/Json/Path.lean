import GhostText.Json.Basic
import GhostText.Fault
import GhostText.Text.Lines

/-!
# Dotted keys and defaults

A dotted key leads through objects within objects. Looking up stops where there is no object or no
member; setting makes objects on the way, in place of whatever else stands there. Merging fills what
is missing from defaults and descends where both sides have an object.
-/

namespace GhostText.Json

/-- The parts of a dotted key; between two dots stands the empty part. -/
def keyParts (key : String) : List String :=
  (Text.pieces ['.'] key.toList).map String.ofList

/-- The value at the end of a path. -/
def lookupPath : List String → Json → Option Json
  | [], v => some v
  | k :: ks, .obj fields =>
    match fields.lookup k with
    | some v => lookupPath ks v
    | none => none
  | _ :: _, _ => none

/-- Puts a value at the end of a path. -/
def putPath (value : Json) : List String → Fields → Fields
  | [], fields => fields
  | [k], fields => Fields.put k value fields
  | k :: l :: ks, fields =>
    let inner := match fields.lookup k with
      | some (.obj fs) => fs
      | _ => []
    Fields.put k (.obj (putPath value (l :: ks) inner)) fields

/-- The value under a dotted key; the empty key is the whole. -/
def getKey? (key : String) (v : Json) : Option Json :=
  if key.isEmpty then some v else lookupPath (keyParts key) v

/-- Sets the value under a dotted key. -/
def setKey (key : String) (value : Json) (fields : Fields) : Except Fault Fields :=
  if key.isEmpty then .error .emptyKey else .ok (putPath value (keyParts key) fields)

mutual

/-- The members of an object with those of the defaults that are missing. -/
def mergeFields : (data defaults : Fields) → Fields
  | data, [] => data
  | data, (k, d) :: rest =>
    match data.lookup k with
    | none => mergeFields (data ++ [(k, d)]) rest
    | some v => mergeFields (Fields.put k (mergeValue v d) data) rest

/-- A value with a default beside it: of two objects the merge, else the value. -/
def mergeValue : (v default : Json) → Json
  | .obj vs, .obj ds => .obj (mergeFields vs ds)
  | v, _ => v

end

end GhostText.Json
