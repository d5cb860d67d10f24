import Playbook.Shell
/-!
# The program

Reads the environment, the input and the files that a command needs, carries the command out in a
world where no other service can be reached, prints what it prints, and writes the files that it
changed.
-/

namespace Playbook.Main

/-- The files that a command reads. -/
def paths (environment : Environment) (command : Command) : List String :=
  let store : FileStore Binary64 := ⟨environment.text "CONTEXT_STORAGE_DIR" "./contexts", none⟩
  match command with
  | .ingest path _ => [path]
  | .turn user _ | .forget user | .talk (some user) => [store.path user]
  | _ => []

/-- The variables that are set. -/
def environment : IO Environment := do
  let entries ← Environment.names.filterMapM fun name => do
    return (← IO.getEnv name).map fun text => (name, text)
  return .ofEntries entries

/-- The texts of those of some files that can be read. -/
def files (paths : List String) : IO (OrderedMap String String) := do
  let entries ← paths.filterMapM fun (path : String) => do
    try
      let text ← IO.FS.readFile path
      return some (path, text)
    catch _ => return none
  return .ofEntries entries

/-- A name for a user who gives none. -/
def guest : IO String := do
  let n ← IO.rand 0 (Nat.pow 16 8 - 1)
  return String.ofList (Text.hex 8 n)

/-- The input, if a command takes it. -/
def input : Command → IO String
  | .talk _ => do (← IO.getStdin).readToEnd
  | _ => return ""

/-- The path of a place. -/
def pathOf (location : Location) : String :=
  "/" ++ String.intercalate "/" location

/-- Writes the files that are new or changed, and removes those that are gone. -/
def save (before after : Disk Binary64) : IO Unit := do
  for folder in after.folders do
    if !before.folders.contains folder then IO.FS.createDirAll (pathOf folder)
  for (location, file) in after.files.entries do
    if (before.files.get? location).map StoredFile.text ≠ some file.text then
      IO.FS.writeFile (pathOf location) file.text
  for location in before.files.keys do
    if !after.files.contains location then IO.FS.removeFile (pathOf location)

end Playbook.Main

open Playbook in
def main (texts : List String) : IO UInt32 := do
  let environment ← Main.environment
  let command? := match Invocation.read texts with
    | .ok (some invocation) => some invocation.command
    | _ => none
  let files ← Main.files ((command?.map (Main.paths environment)).getD [])
  let input ← (command?.map Main.input).getD (return "")
  let world := World.offline (← IO.currentDir).toString environment files .empty
  let (r, after) := Shell.runLine (← Main.guest) input texts world
  IO.print after.printed
  Main.save world.disk after.world.disk
  match r with
  | .ok () => return 0
  | .error (.code n) => return n.toUInt32
  | .error (.failed fault) =>
    IO.eprintln fault.message
    return 1
