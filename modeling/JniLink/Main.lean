import JniLink.Command.Run

/-!
# The program

Reads the files below the working directory and the configuration files above it, runs the command
line on them, prints what it prints and writes the files that it changed. Files are handed over as
bytes, and bytes are no image whose functions could be called: a command that loads a library
answers what the linker says about a file without one.
-/

namespace JniLink.Program

/-- Reads an entry of a directory and everything below it. -/
partial def readEntry (place : Place) (entry : IO.FS.DirEntry) : IO (List (Place × Node)) := do
  let here := place ++ [entry.fileName]
  if ← entry.path.isDir then
    let entries ← entry.path.readDir
    let below ← entries.toList.mapM (readEntry here)
    return (here, .directory) :: below.flatten
  else
    let data ← IO.FS.readBinFile entry.path
    return [(here, .file (.bytes data.toList))]

/-- The configuration files in the directories above a place. -/
def readConfigsAbove (place : Place) : IO (List (Place × Node)) := do
  let mut nodes := []
  for depth in List.range place.length do
    let dir := place.take depth
    if depth > 0 then nodes := (dir, .directory) :: nodes
    let name := "/" ++ "/".intercalate (dir ++ [Config.fileName])
    try
      let data ← IO.FS.readBinFile name
      nodes := (dir ++ [Config.fileName], .file (.bytes data.toList)) :: nodes
    catch _ => pure ()
  return nodes

/-- The variables that decide where something is looked for. -/
def variableNames : List String :=
  [Loader.pathVariable, "LD_LIBRARY_PATH", "ANDROID_NDK_HOME", "ANDROID_NDK_ROOT"]

/-- Writes the files that a command has changed. -/
def writeChanges (before after : FileTree) : IO Unit := do
  for (place, node) in after.nodes.reverse do
    if before.node? place != some node then
      let name := "/" ++ "/".intercalate place
      match node with
      | .directory => IO.FS.createDirAll name
      | .file (.bytes data) => IO.FS.writeBinFile name ⟨data.toArray⟩
      | .file (.image _) => pure ()

end JniLink.Program

open JniLink JniLink.Program in
/-- Runs a command line. -/
def main (words : List String) : IO UInt32 := do
  let here ← IO.currentDir
  let place := here.components.filter (· ≠ "")
  let entries ← here.readDir
  let below ← entries.toList.mapM (readEntry place)
  let files : FileTree := ⟨(place, .directory) :: below.flatten ++ (← readConfigsAbove place)⟩
  let environment ← variableNames.filterMapM fun name => do
    return (← IO.getEnv name).map fun value => (name, value)
  let system : JniLink.System := ⟨files, place, environment, ⟨(← IO.appDir).toString⟩, [], 0⟩
  match system.execute words with
  | none =>
    IO.eprintln "error: the command line cannot be read"
    return 2
  | some finish =>
    writeChanges files finish.system.files
    IO.print finish.output
    IO.eprint finish.errors
    return finish.code.toUInt32
