import GhostText.Assistant.Request
import GhostText.Text.Blank

/-!
# The steps of a start from the command line

What is printed and what is asked next when the server has answered.
-/

namespace GhostText.World

variable (run : Runner)

def print (line : String) (w : World) : World := w.record (.printed line)

def failStartup : List Continuation := [.reaction (.startup .failed)]

/-- One step of a start from the command line: the version is printed, then the status of the
account; where signing in is asked for and needed, the address and the code for it. -/
def continueStartup (answer : Json) (step : StartupStep) (w : World) : World :=
  match step with
  | .ready =>
    let w := w.updateStartup fun s => { s with waiting := false }
    let w := w.print ("Copilot server version: " ++ answer.shown)
    (checkStatus run (.bool false) [.reaction (.startup .account)] failStartup w).2
  | .account =>
    let line := "Account status: " ++ answer.shownMember "status" "unknown" ++ " " ++
      answer.shownMember "user" ""
    let w := w.print (Text.trimEnd line)
    if w.startup.any Startup.signIn && !(answer.fieldD "status").same (.str "OK") then
      (signIn run [.reaction (.startup .signIn)] failStartup w).2
    else w.finishStartup 0
  | .signIn =>
    if (answer.fieldD "status").same (.str "AlreadySignedIn") then
      (w.print ("Already signed in as " ++ answer.shownMember "user" "")).finishStartup 0
    else
      let w := w.print ("Open " ++ answer.shownMember "verificationUri" "" ++
        " and enter the code " ++ answer.shownMember "userCode" "")
      let code := answer.fieldD "userCode"
      (confirmSignIn run code [.reaction (.startup .signedIn)] failStartup w).2
  | .signedIn => (w.print ("Signed in: " ++ answer.shown)).finishStartup 0
  | .failed => w

end GhostText.World
