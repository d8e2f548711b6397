import GhostText.Document.Position

/-!
# Completions

A completion is a text the server proposes for a range of the document. What is missing or mistyped
in the value it is read from takes a neutral value; a number that is none is a fault.
-/

namespace GhostText

structure Completion where
  uuid : String
  position : Position
  range : Range
  docVersion : Int
  text : String
  displayText : String
  deriving DecidableEq, Repr

namespace Completion

/-- Reads a completion. Without a position of its own it stands at the end of its range. -/
def ofJson (v : Json) : Except Fault Completion := do
  let range ← Range.ofJson (v.fieldD "range")
  let place := v.fieldD "position"
  let position ← if place.isObject then Position.ofJson place else .ok range.stop
  let docVersion ← (v.fieldD "docVersion").integerOrZero
  return {
    uuid := (v.fieldD "uuid").textOrEmpty
    position := position
    range := range
    docVersion := docVersion
    text := (v.fieldD "text").textOrEmpty
    displayText := (v.fieldD "displayText").textOrEmpty }

/-- What is shown for a completion. -/
def shownText (c : Completion) : String := if c.displayText.isEmpty then c.text else c.displayText

end Completion

/-- The answer to a request for completions. -/
structure CompletionResult where
  completions : List Completion
  cancellationReason : Option String
  deriving DecidableEq, Repr

namespace CompletionResult

/-- Reads an answer; only the objects among its items are completions. -/
def ofJson (v : Json) : Except Fault CompletionResult := do
  let items ← (v.fieldD "completions").itemsOrNone
  let completions ← (items.filter Json.isObject).mapM Completion.ofJson
  let reason := v.fieldD "cancellationReason"
  return ⟨completions, if reason.truthy then some reason.shown else none⟩

end CompletionResult

end GhostText
