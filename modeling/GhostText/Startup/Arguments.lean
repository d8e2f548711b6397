import GhostText.Json.Convert
import GhostText.Location.Path
import GhostText.Settings.Config

/-!
# Arguments

What is given on the command line and in the environment, and what follows from it: the folder to
work in, the place of the settings, and the way to the server.
-/

namespace GhostText.Arguments

def signInFlag : String := "--sign-in"

/-- The arguments without the flag for signing in, and whether it was there. -/
def split (args : List String) : List String × Bool :=
  (args.filter (· != signInFlag), args.contains signInFlag)

def expandHome (home : String) (path : String) : Except Fault Text :=
  match Path.expandHome home.toList path.toList with
  | some t => .ok t
  | none => .error .unknownHome

/-- The directory at a path, without dots in it, if there is one. -/
def folder? (isDirectory : Text → Bool) (home path : String) : Except Fault (Option String) :=
  let path := Text.trim path
  if path.isEmpty then .ok none
  else do
    let t ← expandHome home path
    return (Path.directory? isDirectory t).map String.ofList

/-- Where the settings are: where the environment says, or else in the home directory. -/
def settingsPath (home chosen : String) : Except Fault String :=
  let chosen := Text.trim chosen
  if chosen.isEmpty then .ok (home ++ "/.config/copilot-bridge/settings.json")
  else (expandHome home chosen).map String.ofList

/-! ## The way to the server -/

/-- How the server is reached: through a relay, or through a process of its own. -/
inductive Connection where
  | relay (host : String) (port : Int)
  | process (program : String) (arguments : List String) (folder : String)
  deriving DecidableEq, Repr

/-- The way to the server that is configured. A process needs to know which server to run. -/
def connection (c : Config) : Except Fault Connection :=
  match c.transport with
  | .relay => .ok (.relay c.relayHost c.relayPort)
  | .pipe =>
    if c.serverPath.isEmpty then .error .noServer
    else
      .ok (.process c.nodePath (c.serverPath :: c.serverArgs)
        (String.ofList (Path.parent c.serverPath.toList)))

/-- A connection that was never opened. The number of a process it knows was given to it. -/
structure IdleConnection where
  number : Int
  deriving DecidableEq, Repr

namespace IdleConnection

def process : IdleConnection := ⟨-1⟩

def relay (number : Option Int) : IdleConnection := ⟨number.getD (-1)⟩

def isRunning (_ : IdleConnection) : Bool := false

/-- Nothing is written before the connection is open. -/
def write (_ : IdleConnection) (_ : List UInt8) : Bool := false

end IdleConnection

/-! ## The relay -/

def relayUsage : String := "Usage: copilot-bridge-relay <port> <command> [args...]"

/-- What a relay is to do: the program's own name comes first, then the port. -/
structure RelayPlan where
  port : Int
  program : String
  arguments : List String
  deriving DecidableEq, Repr

/-- Reads the arguments of a relay, or says what is wrong with them. -/
def relayPlan : List String → Except String RelayPlan
  | _ :: port :: program :: rest =>
    match (Json.str port).toInteger with
    | .ok n => .ok ⟨n, program, rest⟩
    | .error _ => .error ("Invalid port: " ++ port)
  | _ => .error relayUsage

end GhostText.Arguments
