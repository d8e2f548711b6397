import GhostText.Editor.Artifact

/-!
# Suggestion sessions

A session is the life of one completion that is shown: it is proposed, and then accepted or rejected
once.
-/

namespace GhostText

inductive SessionState where
  | proposed
  | accepted
  | rejected
  deriving DecidableEq, Repr

def SessionState.name : SessionState → String
  | .proposed => "proposed"
  | .accepted => "accepted"
  | .rejected => "rejected"

structure Session where
  completion : Completion
  inline : Bool
  acceptKey : String
  /-- Moving the caret gives up the fetches under way too. -/
  cancelsFetches : Bool
  /-- Started by the controller. -/
  controlled : Bool
  state : SessionState
  artifact : Option Artifact
  /-- The history from before the suggestion was shown. -/
  history : List Snapshot
  /-- An end has begun; what the editor tells from now on does not matter. -/
  closing : Bool
  reason : String
  deriving DecidableEq, Repr

namespace Session

def propose (completion : Completion) (inline : Bool) (acceptKey : String)
    (cancelsFetches controlled : Bool) : Session where
  completion := completion
  inline := inline
  acceptKey := if acceptKey.isEmpty then "Tab" else acceptKey
  cancelsFetches := cancelsFetches
  controlled := controlled
  state := .proposed
  artifact := none
  history := []
  closing := false
  reason := ""

def uuid (s : Session) : String := s.completion.uuid

def isFinished (s : Session) : Bool := s.state ≠ .proposed

/-- Whether the session can still be ended. -/
def isOpen (s : Session) : Bool := !s.isFinished && !s.closing

end Session

/-- A session as its host sees it. -/
structure SessionView where
  uuid : String
  state : SessionState
  reason : String
  place : Option Range
  deriving DecidableEq, Repr

end GhostText
