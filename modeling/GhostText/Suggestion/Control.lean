import GhostText.Document.Diff
import GhostText.Settings.Config

/-!
# The controller's state

The controller has at most one live session, and it remembers which text the server has and which
change of the text the server is still to be told.
-/

namespace GhostText

/-- A text the server is to be told, and the caret in it. -/
structure PendingChange where
  text : Text
  caret : Position
  deriving DecidableEq, Repr

structure Controller where
  config : Config
  /-- The number of the live session. -/
  session : Option Nat
  pending : Option PendingChange
  latest : Text
  synced : Text
  /-- The delay of the timer while it runs. -/
  timer : Option Int
  /-- Whether the editor's changes are followed. -/
  listening : Bool
  deriving DecidableEq, Repr

def Controller.start (config : Config) (text : Text) : Controller :=
  ⟨config, none, none, text, text, none, true⟩

end GhostText
