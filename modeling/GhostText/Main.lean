import GhostText.Startup.Run

/-!
# The command line

The server is at the other end of standard input and output; what is meant for the user is written
to standard error. The settings are read from their file, which is written if there was none.
-/

namespace GhostText.CommandLine

/-- Whether what stands at a path is a folder, if anything does. -/
def isFolder? (path : String) : IO (Option Bool) := do
  try
    return some ((← (← IO.FS.realPath path).metadata).type == .dir)
  catch _ => return none

def isFolder (path : String) : IO Bool := return (← isFolder? path).getD false

/-- What stands at the place of the settings. -/
def readDisk (path : String) : IO Disk := do
  let folder := String.ofList (Path.parent path.toList)
  let place ←
    match ← isFolder? path, ← isFolder? folder with
    | some true, _ => pure Place.directory
    | some false, _ =>
      try
        pure (Place.file (← IO.FS.readBinFile path).toList)
      catch _ => pure Place.locked
    | none, some false => pure Place.blocked
    | none, _ => pure Place.nothing
  return ⟨path, folder, place⟩

/-- Writes the settings if nothing was there before. That they cannot be written is told, and the
run goes on. -/
def writeDisk (before after : Disk) : IO Unit := do
  match before.place, after.text? with
  | .nothing, some text =>
    try
      IO.FS.createDirAll after.folder
      IO.FS.writeFile after.path text
    catch e => IO.eprintln (Fault.cannotSave after.path e.toString).message
  | _, _ => pure ()

/-- Shows what has happened: frames go to the server, all else to the user. -/
def showEvents (events : List Event) : IO Unit := do
  for e in events do
    match e with
    | .sent payload => (← IO.getStdout).write ⟨(Frame.encode payload).toArray⟩
    | .printed line => IO.eprintln line
    | .logged level text => IO.eprintln (level.name ++ " " ++ text)
    | _ => pure ()
  (← IO.getStdout).flush

/-- Reads from the server until the run has finished or the server has gone. -/
partial def serve (w : World) : IO World := do
  if w.hasFinished then return w
  let bytes ← (← IO.getStdin).read 4096
  let next :=
    if bytes.isEmpty then w.timeOut else World.deliver (World.runTo World.depthLimit) bytes.toList w
  showEvents (next.events.drop w.events.length)
  if bytes.isEmpty then return next else serve next

end GhostText.CommandLine

open GhostText CommandLine in
def main (args : List String) : IO UInt32 := do
  let home := (← IO.getEnv "HOME").getD ""
  let chosen := (← IO.getEnv "COPILOT_BRIDGE_SETTINGS").getD ""
  match Arguments.settingsPath home chosen with
  | .error f =>
    IO.eprintln f.message
    return 1
  | .ok path =>
    let disk ← readDisk path
    let stations := (Arguments.split args).1.flatMap fun a => Path.stations a.toList
    let known ← stations.filterM fun t => isFolder (String.ofList t)
    let surroundings : Surroundings := ⟨args, home, fun t => known.contains t, disk, 0⟩
    let transport : Transport := ⟨true, [], .later, false, []⟩
    match World.launch (World.runTo World.depthLimit) surroundings transport with
    | .error f =>
      IO.eprintln f.message
      return 1
    | .ok (w, after) =>
      writeDisk disk after
      showEvents w.events
      let w ← serve w
      return UInt32.ofNat w.exitCode
