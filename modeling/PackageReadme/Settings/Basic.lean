/-! What a README shows: its title and import path, which sections it has, and its badges. -/
namespace PackageReadme

/-- The badges that are shown below the title. -/
structure Badges where
  travisCi : Bool := false
  codeCov : Bool := false
  golangCi : Bool := false
  goDoc : Bool := false
  goReportCard : Bool := false
  deriving DecidableEq, Repr

structure Settings where
  /-- Replaces the name of the package as title, unless empty. -/
  title : String := ""
  /-- Replaces the import path of the package, unless empty. -/
  importPath : String := ""
  consts : Bool := false
  vars : Bool := false
  functions : Bool := false
  types : Bool := false
  /-- Shows the functions that return a type below it, if types are shown. -/
  factories : Bool := false
  /-- Shows the methods of a type below it, if types are shown. -/
  methods : Bool := false
  skipExamples : Bool := false
  skipSubPackages : Bool := false
  /-- Tags no code as a diff. -/
  noDiffBlocks : Bool := false
  /-- Takes in the directories at every depth, not only those right below the package. -/
  recursive : Bool := false
  badges : Badges := {}
  credit : Bool := false
  deriving DecidableEq, Repr

namespace Settings

def withTitle (settings : Settings) (title : String) : Settings :=
  { settings with title }

def withImportPath (settings : Settings) (importPath : String) : Settings :=
  { settings with importPath }

def withFunctions (settings : Settings) : Settings :=
  { settings with functions := true }

def withTypes (settings : Settings) (factories methods : Bool) : Settings :=
  { settings with types := true, factories, methods }

/-- Shows neither examples nor sub-packages. -/
def minimal (settings : Settings) : Settings :=
  { settings with skipExamples := true, skipSubPackages := true }

def showsFactories (settings : Settings) : Bool :=
  settings.types && settings.factories

def showsMethods (settings : Settings) : Bool :=
  settings.types && settings.methods

end Settings
end PackageReadme
