/-
# The checker as a program

The inputs of the command line are read from disk, checked, and written back where they were
reformatted.
-/

import Dragonstone.CommandLine.Check

namespace Dragonstone.CommandLine

/-- What stands on disk under a name; nothing if there is no such name. -/
def readNode? (name : String) : IO (Option Node) := do
  try
    let bytes ← IO.FS.readBinFile name
    return some (.file bytes.toList)
  catch
    | .noFileOrDirectory .. => return none
    | _ => return some .folder

/-- The names that matter for reading a path: those it passes on the way, and its own. -/
def namesOnTheWay (p : Path) : List String :=
  let inside := (List.range p.parts.length).map fun n =>
    Directory.key (Path.resolveParts (p.parts.take (n + 1)))
  p.toString :: if p.root.isEmpty then inside.filter fun name => !name.isEmpty else []

/-- The part of the disk that some paths lead to. -/
def loadDirectory (paths : List Path) : IO Directory := do
  let mut directory : Directory := {}
  for name in paths.flatMap namesOnTheWay do
    if let some node ← readNode? name then directory := directory.put name node
  return directory

/-- Write the files that are not as they were loaded. -/
def storeDirectory (before after : Directory) : IO Unit := do
  for (name, node) in after.entries do
    if let .file bytes := node then
      if before.get? name != some node then IO.FS.writeBinFile name ⟨bytes.toArray⟩

def checkUsage : String :=
  "usage: dscheck [-h] [--format] [--write] [--symbols] [--indent-width INDENT_WIDTH] " ++
    "[--no-naming] [--no-brackets] [--log-level LEVEL] inputs [inputs ...]"

end Dragonstone.CommandLine

open Dragonstone CommandLine in
/-- Check the files of the command line. -/
def main (args : List String) : IO UInt32 := do
  match checkGrammar.read {} args with
  | .error stop =>
    if stop = .help then IO.println checkUsage else IO.eprintln checkUsage
    return .ofNat stop.exitCode
  | .ok (options, inputs) =>
    let paths := inputs.map Path.ofString
    let before ← loadDirectory paths
    let outcome := check before options paths
    storeDirectory before outcome.directory
    IO.print outcome.output
    IO.eprint (printed (outcome.complaints.map Complaint.line))
    return .ofNat outcome.exitCode
