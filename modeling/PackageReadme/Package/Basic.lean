import PackageReadme.Comment.Synopsis

/-! The documentation of a package: its comment, what it declares, its examples and the directories
below it. -/
namespace PackageReadme

/-- Where a declaration stands in the sources of its package. -/
structure SourcePosition where
  file : String := ""
  url : Option String := none
  line : UInt32 := 0
  deriving DecidableEq, Repr

/-- The address of a declaration: the page of its file if there is one, else its file, at the
line. -/
def SourcePosition.link (position : SourcePosition) : String :=
  let line := position.line.toNat
  match position.url with
  | none => s!"/{position.file}#L{line}"
  | some url => if url = "" then s!"/{position.file}#L{line}" else s!"{url}#L{line}"

structure Example where
  name : String := ""
  doc : String := ""
  code : String := ""
  /-- A whole program, shown in place of the code. -/
  play : Option String := none
  output : String := ""
  deriving DecidableEq, Repr

/-- The program of an example that can be run, or else its code. -/
def Example.program (sample : Example) : String :=
  match sample.play with
  | none => sample.code
  | some play => if play = "" then sample.code else play

/-- Constants or variables that are declared together. -/
structure Value where
  names : List String := []
  doc : String := ""
  decl : String := ""
  position : Option SourcePosition := none
  deriving DecidableEq, Repr

/-- A function, or a method if it has a receiver. -/
structure Function where
  name : String := ""
  doc : String := ""
  decl : String := ""
  receiver : Option String := none
  position : Option SourcePosition := none
  examples : List Example := []
  deriving DecidableEq, Repr

/-- A type with what is declared around it. -/
structure TypeDecl where
  name : String := ""
  doc : String := ""
  decl : String := ""
  position : Option SourcePosition := none
  consts : List Value := []
  vars : List Value := []
  /-- The functions that return the type. -/
  factories : List Function := []
  methods : List Function := []
  examples : List Example := []
  deriving DecidableEq, Repr

structure Package where
  name : String := ""
  importPath : String := ""
  projectName : String := ""
  doc : String := ""
  synopsis? : Option String := none
  isCommand : Bool := false
  consts : List Value := []
  vars : List Value := []
  functions : List Function := []
  types : List TypeDecl := []
  examples : List Example := []
  /-- The directories below the package, by their paths from it. -/
  subdirectories : List String := []
  deriving DecidableEq, Repr

namespace Package

/-- A directory that holds no package is a package without a name. -/
def isDocumentable (package : Package) : Bool :=
  package.name != ""

/-- The synopsis that the package states, or else the one of its comment. -/
def synopsis (package : Package) : String :=
  match package.synopsis? with
  | some synopsis => synopsis
  | none => String.ofList (Comment.synopsis package.doc.toList)

end Package

/-- A package below another one, with its path from there. -/
structure SubPackage where
  path : String := ""
  package : Package := {}
  deriving DecidableEq, Repr

end PackageReadme
