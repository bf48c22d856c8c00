import QuadStore.CommandLine.Run
import QuadStore.Index

/-!
# The program

Reads the files that a command line names and the index it is for, runs it, keeps the index, and
prints what there is to print.  Everything that is decided is decided by `CommandLine.Run`.
-/

namespace QuadStore.CommandLine

/-- How the program is called. -/
def usage : String :=
  "usage: [-i INDEX] [-c CONFIG] COMMAND\n" ++
  "commands:\n" ++
  "  load FILE... [-g GRAPH]\n" ++
  "  find PATTERN [-g GRAPH]\n" ++
  "  query PATTERNS [-g GRAPH] [-w CONSTRAINT]...\n" ++
  "  graphs\n" ++
  "  count [PATTERN] [-g GRAPH]\n" ++
  "  clear [-g GRAPH | --all]\n" ++
  "  stats"

/-- The files that an invocation reads. -/
def Invocation.files (invocation : Invocation) : List String :=
  invocation.config.toList ++ match invocation.command with
    | .load files _ => files
    | _ => []

/-- The file that keeps the index of a directory. -/
def archivePath (index : String) : String := index ++ "/quads.index"

/-- The bytes of a file, if it can be read. -/
def readFile? (path : String) : IO (Option (List UInt8)) := do
  try return some (← IO.FS.readBinFile path).toList
  catch _ => return none

/-- The index that a directory keeps: empty if there is none, nothing if it cannot be read. -/
def readIndex (path : String) : IO (Option Index) := do
  match ← readFile? (archivePath path) with
  | none => return some .empty
  | some bytes =>
    match Content.text? bytes with
    | none => return none
    | some text => return Index.ofLines? ((splitLines '\n' '\r' text).map String.ofList)

/-- Keeps an index in a directory. -/
def writeIndex (path : String) (index : Index) : IO Unit := do
  IO.FS.createDirAll path
  IO.FS.writeFile (archivePath path) (String.join (index.toLines.map (· ++ "\n")))

/-- Runs an invocation in the file system. -/
def Invocation.execute (invocation : Invocation) : IO UInt32 := do
  let mut files := []
  for path in invocation.files do
    if let some bytes ← readFile? path then
      files := (normalPath path, bytes) :: files
  let some index ← readIndex invocation.index
    | IO.eprintln ("Error: Failed to open index at " ++ invocation.index)
      return 1
  let directory : Directory := ⟨files, [(normalPath invocation.index, index)]⟩
  let (report, after) := invocation.run directory
  writeIndex invocation.index (after.index invocation.index)
  for line in report.lines do
    IO.println line
  if let some failure := report.failure then
    IO.eprintln ("Error: " ++ failure)
  return UInt32.ofNat report.outcome.code

/-- Runs a command line. -/
def execute (arguments : List String) : IO UInt32 := do
  match Invocation.parse arguments with
  | .error .help =>
    IO.println usage
    return 0
  | .error .usage =>
    IO.eprintln usage
    return 2
  | .ok invocation => invocation.execute

end QuadStore.CommandLine

/-- The program. -/
def main (arguments : List String) : IO UInt32 := QuadStore.CommandLine.execute arguments
