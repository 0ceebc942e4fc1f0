import PackageReadme.Arguments.Parse
import PackageReadme.Command.Run
import PackageReadme.Log.Filter

/-! The program as a whole: from arguments to an exit code, what goes to the standard output, and
the records that are let through. -/
namespace PackageReadme

/-! ### Records -/

/-- The filter of a run: what its switches say, or else the environment, or else the usual one. -/
def filterOf (invocation : Invocation) (environment : List (String × String)) :
    Except Halt Filter :=
  if invocation.isOn .verbose then .ok (.uniform Severity.debug.rank)
  else if invocation.isOn .quiet then .ok (.uniform Severity.error.rank)
  else
    match (environment.lookup "RUST_LOG").map Filter.read with
    | some (.ok filter) => .ok filter
    | some (.error (.broken slice)) => .error (.crashed slice.text)
    | some (.error .malformed) | none => .ok (.uniform Severity.info.rank)

/-- Whether records are coloured, if the environment decides that. -/
def colors? (environment : List (String × String)) : Option Bool :=
  if (environment.lookup "NO_COLOR").isSome then some false
  else if (environment.lookup "FORCE_COLOR").isSome then some true
  else none

/-! ### Exit -/

structure Exit where
  code : UInt32
  /-- What the standard output has taken. -/
  output : List UInt8 := []
  files : FileTree
  /-- The records that are let through, as they are written. -/
  records : List Record := []
  /-- What is told of a failure. -/
  report : Option String := none

def versionText : String :=
  s!"readmegen {Contents.version}\n"

def helpText : String :=
  "Generate README.md files from Go package documentation\n\n" ++
    "Usage: readmegen [OPTIONS] --manifest <FILE> [IMPORT_PATH]\n"

def UsageFault.text : UsageFault → String
  | .missingArgument => "the argument '--manifest <FILE>' is missing"
  | .unknownArgument => "unexpected argument"
  | .conflict => "arguments cannot be used together or more than once"
  | .invalidValue => "invalid or missing value"
  | .unreadableValue => "a value is not a number"
  | .tooManyValues => "unexpected value"
  | .helpWanted => helpText
  | .versionWanted => versionText

/-- Arguments that ask for nothing that can be run. A text that is asked for is shown as far as it
can be. -/
def UsageFault.exit (fault : UsageFault) (world : World) : Exit :=
  let shown (text : String) := (world.print text.toUTF8.toList).2
  match fault with
  | .helpWanted => { code := 0, output := shown helpText, files := world.files }
  | .versionWanted => { code := 0, output := shown versionText, files := world.files }
  | fault => { code := 2, files := world.files, report := some fault.text }

def Halt.code : Halt → UInt32
  | .failed _ => 1
  | .crashed _ => 101

def Halt.report : Halt → String
  | .failed failure => failure.report
  | .crashed message => message

/-- Runs the program with arguments. -/
def program (world : World) (arguments : List String) : Exit :=
  match Arguments.parse arguments with
  | .error fault => fault.exit world
  | .ok invocation =>
    match filterOf invocation world.environment with
    | .error halt => { code := halt.code, files := world.files, report := some halt.report }
    | .ok filter =>
      let ran := run world invocation
      let records := (ran.records.filter filter.lets).map Record.safe
      match ran.outcome with
      | .ok () => { code := 0, output := ran.output, files := ran.files, records }
      | .error halt =>
        { code := halt.code, output := ran.output, files := ran.files, records,
          report := some halt.report }

end PackageReadme
