import GhostText.Text.Blank
import GhostText.Text.Lines

/-!
# File paths

Paths with slashes, handled as text. A relative path is taken from the root directory, the working
directory of the program. Two leading slashes are a root of their own; three or more are one.
-/

namespace GhostText.Path

/-- The names between the slashes, empty ones and single dots left out. -/
def names (path : Text) : List Text :=
  (Text.pieces ['/'] path).filter fun n => !n.isEmpty && n != ['.']

/-- The slashes a path starts with, as far as they count. -/
def rootOf (path : Text) : Text :=
  match path with
  | '/' :: '/' :: '/' :: _ => ['/']
  | '/' :: '/' :: _ => ['/', '/']
  | '/' :: _ => ['/']
  | _ => []

def joinNames (ns : List Text) : Text := ['/'].intercalate ns

/-- Takes two dots back together with the name before them. The names read so far come last name
first; above the root directory there is nothing. -/
def resolveStep (done : List Text) (name : Text) : List Text :=
  if name = ['.', '.'] then done.drop 1 else name :: done

/-- The names of an absolute path without dots. -/
def resolvedNames (path : Text) : List Text := ((names path).foldl resolveStep []).reverse

/-- The absolute path without dots and without a slash at the end. -/
def absolute (path : Text) : Text :=
  let root := rootOf path
  (if root.isEmpty then ['/'] else root) ++ joinNames (resolvedNames path)

/-- What stands behind the last slash. -/
def baseName (path : Text) : Text := (Text.afterLast? ['/'] path).getD path

/-- Cuts slashes and backslashes off the end. -/
def withoutTrailingSlashes (path : Text) : Text :=
  Text.trimRight (fun c => c = '/' || c = '\\') path

/-- The name of a folder, or the whole path where it has none. -/
def folderName (path whole : Text) : Text :=
  let name := baseName (withoutTrailingSlashes path)
  if name.isEmpty then whole else name

def commonNames : List Text → List Text → Nat
  | m :: ms, n :: ns => if m = n then commonNames ms ns + 1 else 0
  | _, _ => 0

/-- The way from a folder to a path. -/
def relative (path folder : Text) : Text :=
  let target := resolvedNames path
  let origin := resolvedNames folder
  let shared := commonNames origin target
  let way := List.replicate (origin.length - shared) ['.', '.'] ++ target.drop shared
  if way.isEmpty then ['.'] else joinNames way

/-- A path as it is kept: without empty names and single dots, two dots left as they are. -/
def tidy (path : Text) : Text :=
  let t := rootOf path ++ joinNames (names path)
  if t.isEmpty then ['.'] else t

/-- The folder a path is in; a single name is in the current one. -/
def parent (path : Text) : Text :=
  let t := rootOf path ++ joinNames (names path).dropLast
  if t.isEmpty then ['.'] else t

/-- Puts the home directory in place of a first name of one tilde; the home of another user is not
known. -/
def expandHome (home path : Text) : Option Text :=
  let t := tidy path
  match t with
  | ['~'] => some home
  | '~' :: '/' :: rest => some (home ++ '/' :: rest)
  | '~' :: _ => none
  | _ => some t

/-- Walks along names from a directory, given last name first; every name on the way has to be a
directory. -/
def walk (isDirectory : Text → Bool) : List Text → List Text → Option (List Text)
  | done, [] => some done
  | done, name :: rest =>
    if name = ['.', '.'] then walk isDirectory (done.drop 1) rest
    else if isDirectory ('/' :: joinNames (name :: done).reverse) then
      walk isDirectory (name :: done) rest
    else none

/-- The directories that walking along a path can come by. -/
def stations (path : Text) : List Text :=
  let ns := names path
  (List.range (ns.length + 1)).map fun n =>
    '/' :: joinNames ((ns.take n).foldl resolveStep []).reverse

/-- The directory at a path, without dots, if there is one. -/
def directory? (isDirectory : Text → Bool) (path : Text) : Option Text :=
  (walk isDirectory [] (names path)).map fun done => '/' :: joinNames done.reverse

end GhostText.Path
