/-! The names that arguments go by: parameters take a value, switches do not. -/
namespace PackageReadme

inductive Parameter where
  | manifest
  | config
  | output
  | format
  | timeout
  | title
  | importPath
  deriving DecidableEq, Repr

namespace Parameter

def all : List Parameter :=
  [.manifest, .config, .output, .format, .timeout, .title, .importPath]

/-- The name after two dashes. -/
def long : Parameter → String
  | .manifest => "manifest"
  | .config => "config"
  | .output => "output"
  | .format => "format"
  | .timeout => "timeout"
  | .title => "title"
  | .importPath => "import-path"

/-- The letter after one dash. -/
def short? : Parameter → Option Char
  | .manifest => some 'm'
  | .config => some 'c'
  | .output => some 'o'
  | _ => none

end Parameter

inductive Switch where
  | consts
  | vars
  | functions
  | types
  | factories
  | methods
  | skipExamples
  | skipSubPackages
  | noDiffBlocks
  | recursive
  | credit
  | badgeTravisCi
  | badgeCodeCov
  | badgeGolangCi
  | badgeGoDoc
  | badgeGoReportCard
  | verbose
  | quiet
  | noColor
  deriving DecidableEq, Repr

namespace Switch

def all : List Switch :=
  [.consts, .vars, .functions, .types, .factories, .methods, .skipExamples, .skipSubPackages,
   .noDiffBlocks, .recursive, .credit, .badgeTravisCi, .badgeCodeCov, .badgeGolangCi, .badgeGoDoc,
   .badgeGoReportCard, .verbose, .quiet, .noColor]

/-- The name after two dashes. -/
def long : Switch → String
  | .consts => "consts"
  | .vars => "vars"
  | .functions => "functions"
  | .types => "types"
  | .factories => "factories"
  | .methods => "methods"
  | .skipExamples => "skip-examples"
  | .skipSubPackages => "skip-sub-packages"
  | .noDiffBlocks => "no-diff-blocks"
  | .recursive => "recursive"
  | .credit => "credit"
  | .badgeTravisCi => "badge-travisci"
  | .badgeCodeCov => "badge-codecov"
  | .badgeGolangCi => "badge-golangci"
  | .badgeGoDoc => "badge-godoc"
  | .badgeGoReportCard => "badge-goreportcard"
  | .verbose => "verbose"
  | .quiet => "quiet"
  | .noColor => "no-color"

/-- The letter after one dash. -/
def short? : Switch → Option Char
  | .verbose => some 'v'
  | .quiet => some 'q'
  | _ => none

end Switch

/-- What a name stands for. -/
inductive Key where
  | parameter (parameter : Parameter)
  | switch (switch : Switch)
  | help
  | version
  deriving DecidableEq, Repr

namespace Key

def all : List Key :=
  Parameter.all.map .parameter ++ Switch.all.map .switch ++ [.help, .version]

def long : Key → String
  | .parameter p => p.long
  | .switch s => s.long
  | .help => "help"
  | .version => "version"

def short? : Key → Option Char
  | .parameter p => p.short?
  | .switch s => s.short?
  | .help => some 'h'
  | .version => some 'V'

/-- The key of a name; names are not abbreviated. -/
def ofLong? (name : List Char) : Option Key :=
  all.find? fun key => key.long.toList = name

def ofShort? (letter : Char) : Option Key :=
  all.find? fun key => key.short? = some letter

end Key
end PackageReadme
