import GhostText.Suggestion.Sync

/-!
# What a fetch brings

A fetch ends with its answer. At most one completion of it is shown, and the server is told of every
other one that it is turned down.
-/

namespace GhostText.World

variable (run : Runner)

/-- Hands a completion to whoever the fetch was for. -/
def deliverCompletion (completion : Completion) : CompletionSink → Act World Unit
  | .nobody => fun w => (.ok (), w)
  | .host c => callHost run .completion c (.completion completion)
  | .controller => fun w => (.ok (), w.takeCompletion completion)

/-- The first completion is for whoever asked, the others are turned down. What was given up is
turned down altogether, and what the server has cancelled brings nothing. -/
def fetchAnswered (id : Nat) (result : CompletionResult) (sink : CompletionSink) : Act World Unit :=
  fun w =>
    let (cancelled, w) := w.removeFetch id
    let w := reportIfIdle run w
    let uuids := result.completions.map Completion.uuid
    if cancelled then (.ok (), if uuids.isEmpty then w else w.notifyRejected uuids)
    else
      match result.cancellationReason, result.completions with
      | none, first :: rest =>
        deliverCompletion run first sink
          (if rest.isEmpty then w else w.notifyRejected (rest.map Completion.uuid))
      | _, _ => (.ok (), w)

end GhostText.World
