import PackageReadme.Badge

/-! The sections of a README and their entries. Comments are kept as they were written. -/
namespace PackageReadme

structure ValueEntry where
  doc : String
  decl : String
  deriving DecidableEq, Repr

structure ExampleEntry where
  name : String
  doc : String
  code : String
  output : String
  deriving DecidableEq, Repr

structure FunctionEntry where
  name : String
  receiver : Option String
  link : Option String
  decl : String
  doc : String
  examples : List ExampleEntry
  deriving DecidableEq, Repr

structure TypeEntry where
  name : String
  link : Option String
  /-- The declaration in short form. -/
  decl : String
  doc : String
  consts : List ValueEntry
  vars : List ValueEntry
  factories : List FunctionEntry
  methods : List FunctionEntry
  examples : List ExampleEntry
  deriving DecidableEq, Repr

structure SubPackageEntry where
  path : String
  synopsis : String
  deriving DecidableEq, Repr

inductive Section where
  | title (text : String)
  | badges (entries : List Badge)
  | doc (text : String)
  | constants (entries : List ValueEntry)
  | variables (entries : List ValueEntry)
  | functions (entries : List FunctionEntry)
  | types (entries : List TypeEntry)
  | subPackages (entries : List SubPackageEntry)
  | examples (entries : List ExampleEntry)
  | credit
  deriving DecidableEq, Repr

/-- What a section is called in records. -/
def Section.name : Section → String
  | .title _ => "title"
  | .badges _ => "badges"
  | .doc _ => "doc"
  | .constants _ => "constants"
  | .variables _ => "variables"
  | .functions _ => "functions"
  | .types _ => "types"
  | .subPackages _ => "sub packages"
  | .examples _ => "examples"
  | .credit => "credit"

end PackageReadme
