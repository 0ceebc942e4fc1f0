import PackageReadme.Command.Program
import PackageReadme.Command.Stamp
import Std.Time.DateTime.Timestamp

/-! The command line: what a run depends on is read from the system, the run itself is a function,
and what it comes to is written back. -/
namespace PackageReadme.CommandLine

/-! ### Reading -/

/-- The variables of a block of bytes, each of which ends in a zero. -/
def variablesOf (block : List UInt8) : List (String × String) :=
  (block.splitOn 0).filterMap fun bytes =>
    match String.fromUTF8? ⟨bytes.toArray⟩ with
    | none => none
    | some text =>
      let name := text.toList.takeWhile (· != '=')
      match text.toList.drop name.length with
      | _ :: value => some (String.ofList name, String.ofList value)
      | [] => none

/-- The ways that a path leads through, from a way on. -/
def waysOn (way : List String) : List String → List (List String)
  | [] => []
  | name :: rest =>
    let next :=
      if name = "." then way else if name = ".." then way.dropLast else way ++ [name]
    next :: waysOn next rest

/-- The ways that a path leads through. -/
def waysTo (directory : List String) (path : String) : List (List String) :=
  waysOn (if Path.isAbsolute path then [] else directory) (Path.segments path)

/-- The paths that a run looks at. -/
def pathsOf (invocation : Invocation) : List String :=
  let output := invocation.output.toList
  let temporaries := output.filterMap fun path => (temporary path).toOption
  [invocation.manifest, invocation.config.getD settingsFile] ++ output ++ temporaries

def absolute (way : List String) : String :=
  "/" ++ "/".intercalate way

/-- What is at the end of a way. -/
def entryAt (way : List String) : IO (Option Entry) := do
  let path := (← IO.currentDir) / absolute way
  if ← path.isDir then return some .directory
  else if ← path.pathExists then return some (.file (← IO.FS.readBinFile path).toList)
  else return none

/-- The part of the system's files that a run looks at. -/
def readTree (directory : List String) (invocation : Invocation) : IO FileTree := do
  let ways := (pathsOf invocation).flatMap (waysTo directory)
  ways.foldlM (fun (tree : FileTree) way => do
    match ← entryAt way with
    | some entry => return tree.put way entry
    | none => return tree) { directory }

def readWorld (arguments : List String) : IO World := do
  let directory := (← IO.currentDir).toString
  let names := Path.names directory
  let environment ← try pure (variablesOf (← IO.FS.readBinFile "/proc/self/environ").toList)
    catch _ => pure []
  let files ← match Arguments.parse arguments with
    | .ok invocation => readTree names invocation
    | .error _ => pure { directory := names }
  let now := (← Std.Time.Timestamp.now).val
  return {
    files, environment, directory
    clock := ← IO.monoMsNow
    stamp := stampText now.second.val.toNat now.nano.val.toNat }

/-! ### Writing -/

/-- Writes the files that are new or changed. -/
def writeChanges (before after : FileTree) : IO Unit :=
  after.entries.forM fun (way, entry) => do
    match entry with
    | .directory => return
    | .file bytes =>
      if before.get? way = some entry then return
      let path := absolute way
      match temporary path with
      | .ok beside =>
        IO.FS.writeBinFile beside ⟨bytes.toArray⟩
        IO.FS.rename beside path
      | .error _ => return

end PackageReadme.CommandLine

open PackageReadme CommandLine in
def main (arguments : List String) : IO UInt32 := do
  let world ← readWorld arguments
  let exit := program world arguments
  for record in exit.records do
    IO.eprintln s!"{world.stamp} {record.line}"
  writeChanges world.files exit.files
  (← IO.getStdout).write ⟨exit.output.toArray⟩
  match exit.report with
  | some report => IO.eprintln report
  | none => return exit.code
  return exit.code
