import PackageReadme.Failure
import PackageReadme.Settings.Sources

/-! Why a run of the command failed, in the words of a message and in those of a report. -/
namespace PackageReadme

/-- The file that settings are read from, if it is there. -/
def settingsFile : String := "readmegen.json"

inductive ConfigFailure where
  | notFound (path : String)
  | invalidValue (field value hint : String)
  | unreadable (fault : SystemFault)
  deriving Repr

def ConfigFailure.text : ConfigFailure → String
  | .notFound path =>
    s!"Config file not found: {path}\n\nHint: Create the file or drop --config to use {settingsFile}"
  | .invalidValue field value hint => s!"Invalid value for '{field}': {value}\n\nHint: {hint}"
  | .unreadable fault => s!"Failed to read config file: {fault.text}"

def ConfigFailure.ofSettings (fault : SettingsFault) : ConfigFailure :=
  .invalidValue fault.field fault.text
    s!"Check {settingsFile} syntax and {Environment.start}* variables"

inductive CommandFailure where
  | config (failure : ConfigFailure)
  | docs (failure : Failure)
  | invalidArgument (message : String)
  | fileNotFound (path : String)
  | system (fault : SystemFault)
  | custom (message : String)
  deriving Repr

/-- The words of a failure in a report, with a hint where there is one. -/
def Failure.report : Failure → String
  | .packageNotFound importPath =>
    s!"Package '{importPath}' not found\n\n" ++
      "Hint: Check the import path and that the manifest lists it"
  | .invalidManifest path message =>
    s!"Invalid package manifest {path}: {message}\n\n" ++
      "Hint: The manifest must look like \x7b\"packages\": \x7b\"<import path>\": \x7b...\x7d\x7d\x7d"
  | .invalidSettings rejection =>
    s!"Invalid render configuration: {rejection.message}\n\n" ++
      s!"Hint: Check {settingsFile} syntax and field types"
  | .timeout importPath => s!"Fetching '{importPath}' timed out\n\nHint: Raise --timeout"
  | failure => failure.text

namespace CommandFailure

def text : CommandFailure → String
  | .config failure => s!"Configuration error: {failure.text}"
  | .docs failure => failure.text
  | .invalidArgument message => s!"Invalid argument: {message}"
  | .fileNotFound path => s!"File not found: {path}"
  | .system fault => s!"I/O error: {fault.text}"
  | .custom message => message

def report : CommandFailure → String
  | .docs failure => failure.report
  | failure => failure.text

/-- A failure at a path: if something was not there, it is the path that was not found. -/
def withPath (path : String) : CommandFailure → CommandFailure
  | .system fault => if fault.isMissing then .fileNotFound path else .system fault
  | .docs (.inaccessible other fault) =>
    if fault.isMissing then .fileNotFound path else .docs (.inaccessible other fault)
  | failure => failure

/-- A failure with what was being done put in front of its message. -/
def inContext (context : String) (failure : CommandFailure) : CommandFailure :=
  .custom s!"{context}: {failure.text}"

end CommandFailure
end PackageReadme
