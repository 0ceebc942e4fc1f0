import PackageReadme.Arguments.Key

/-! What the arguments of a command ask for, and what can be wrong with them. -/
namespace PackageReadme

/-- What is written: the README, or its contents as JSON. -/
inductive Format where
  | markdown
  | json
  deriving DecidableEq, Repr

namespace Format

def name : Format → String
  | .markdown => "markdown"
  | .json => "json"

def ofName? (name : String) : Option Format :=
  [Format.markdown, .json].find? (·.name = name)

end Format

structure Invocation where
  /-- The import path of the package. -/
  importPath : String := "."
  /-- The file of the manifest. -/
  manifest : String
  config : Option String := none
  output : Option String := none
  format : Format := .markdown
  /-- Seconds. -/
  timeout : Option UInt64 := none
  title : Option String := none
  /-- The import path that is shown in place of the package's own. -/
  shownPath : Option String := none
  isOn : Switch → Bool := fun _ => false

/-- What is wrong with arguments; also when they ask for help or for the version, nothing is run. -/
inductive UsageFault where
  | missingArgument
  | unknownArgument
  | conflict
  | invalidValue
  | unreadableValue
  | tooManyValues
  | helpWanted
  | versionWanted
  deriving DecidableEq, Repr

end PackageReadme
