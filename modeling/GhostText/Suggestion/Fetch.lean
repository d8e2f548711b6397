import GhostText.Host.Action

/-!
# Fetches

The requests for completions that are under way. A fetch that is given up stays in the table until
its answer comes; what the answer then brings is turned down.
-/

namespace GhostText

structure Fetch where
  id : Nat
  cancelled : Bool
  deriving DecidableEq, Repr

/-- The fetches under way, and what a fetch tells the server about the document. -/
structure Fetches where
  workspaceFolder : Json
  activeFile : Json
  languageId : Json
  tabSize : Json
  insertSpaces : Json
  /-- How many fetches were started so far. -/
  started : Nat
  underWay : List Fetch

namespace Fetches

def start (workspaceFolder activeFile tabSize insertSpaces : Json) : Fetches :=
  ⟨workspaceFolder, activeFile, .str "", tabSize, insertSpaces, 0, []⟩

def ids (t : Fetches) : List Nat := t.underWay.map Fetch.id

def allCancelled (t : Fetches) : Bool := t.underWay.all Fetch.cancelled

end Fetches

end GhostText
