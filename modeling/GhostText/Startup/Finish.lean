import GhostText.Assistant.Report

/-!
# The end of a start from the command line

A run that was started from the command line says what the transport has to say in its log, and it
ends with an exit code.
-/

namespace GhostText.World

/-- A message about the connection; a start from the command line logs it. -/
def statusMessage (text : String) (w : World) : World :=
  if w.startup.isSome then w.log .info text else w.signal (.statusMessage text)

/-- Ends a start from the command line: the server is told, and the transport stops. -/
def finishStartup (code : Nat) (w : World) : World :=
  let w := w.updateStartup fun s => { s with exitCode := some code }
  ((w.notify "exit" .null).record .transportStopped).closeClient

end GhostText.World
