import PackageReadme.Json.Fault
import PackageReadme.Text.Quoted

/-! Why a README could not be made, or one of the packages below it could not be had, and in which
words. -/
namespace PackageReadme

/-- Why the system refused an operation on a file or a stream. -/
inductive SystemFault where
  | notFound
  | isDirectory
  | notDirectory
  | notText
  | busy
  | tooLong
  | holdsNul
  /-- A fault in the words of whoever found it; `missing` says that something was not there. -/
  | reported (missing : Bool) (message : String)
  deriving DecidableEq, Repr

namespace SystemFault

def text : SystemFault → String
  | .notFound => "No such file or directory (os error 2)"
  | .isDirectory => "Is a directory (os error 21)"
  | .notDirectory => "Not a directory (os error 20)"
  | .notText => "stream did not contain valid UTF-8"
  | .busy => "Device or resource busy (os error 16)"
  | .tooLong => "File name too long (os error 36)"
  | .holdsNul => "file name contained an unexpected NUL byte"
  | .reported _ message => message

/-- Whether the fault is that something was not there. -/
def isMissing : SystemFault → Bool
  | .notFound => true
  | .reported missing _ => missing
  | _ => false

end SystemFault

inductive Failure where
  | inaccessible (path : String) (fault : SystemFault)
  | invalidSettings (rejection : Json.Rejection)
  | invalidManifest (path : String) (message : String)
  | packageNotFound (importPath : String)
  | timeout (importPath : String)
  /-- What failed below a package, each failure with its import path. -/
  | subPackages (failures : List (String × Failure))
  | unwritten (fault : SystemFault)
  /-- The source broke down with a message. -/
  | crashed (message : String)
  | other (message : String)
  deriving Repr

/-- A failure to get one package, with its import path. -/
abbrev FetchFailure := String × Failure

mutual

def Failure.text : Failure → String
  | .inaccessible path fault => s!"failed to access '{path}': {fault.text}"
  | .invalidSettings rejection => s!"invalid render configuration: {rejection.message}"
  | .invalidManifest path message => s!"invalid package manifest '{path}': {message}"
  | .packageNotFound importPath => s!"package '{importPath}' not found"
  | .timeout importPath => s!"fetching '{importPath}' timed out"
  | .subPackages [] => "no errors occurred"
  | .subPackages [only] => "1 error occurred:" ++ FetchFailure.bullets [only]
  | .subPackages failures =>
    s!"{failures.length} errors occurred:" ++ FetchFailure.bullets failures
  | .unwritten fault => s!"failed to write output: {fault.text}"
  | .crashed message =>
    "fetch task panicked: task <id> panicked with message " ++ Text.quoted message
  | .other message => message

/-- Every failure on a line of its own, after a mark. -/
def FetchFailure.bullets : List (String × Failure) → String
  | [] => ""
  | (importPath, failure) :: rest =>
    "\n\t* " ++ s!"failed getting {importPath}: " ++ failure.text ++ FetchFailure.bullets rest

end

def FetchFailure.text (failure : FetchFailure) : String :=
  s!"failed getting {failure.1}: " ++ failure.2.text

/-- Failures in ascending order of their import paths, those of one path in the given order. -/
def FetchFailure.sort (failures : List FetchFailure) : List FetchFailure :=
  failures.mergeSort fun a b => a.1 ≤ b.1

end PackageReadme
