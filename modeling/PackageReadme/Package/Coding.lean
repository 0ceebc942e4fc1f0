import PackageReadme.Json.Printer
import PackageReadme.Json.Record
import PackageReadme.Package.Basic

/-! Packages as JSON.

Every field of a package may be missing. When written, texts and flags are always there, while lists
that are empty and values that are absent are left out. -/
namespace PackageReadme
open Json

/-! ### Positions -/

def SourcePosition.toJson (position : SourcePosition) : Json :=
  .object <|
    [("file", .string position.file)] ++ optionMember "url" .string position.url ++
      [("line", .nat position.line.toNat)]

def SourcePosition.shape : Shape SourcePosition where
  title := "struct SourcePos"
  initial := {}
  fields :=
    [.of "file" .string fun file position => { position with file },
     .of "url" (.option .string) fun url position => { position with url },
     .of "line" .word fun line position => { position with line }]

def SourcePosition.decoder : Decoder SourcePosition :=
  .record shape

/-! ### Examples -/

def Example.toJson (sample : Example) : Json :=
  .object <|
    [("name", .string sample.name), ("doc", .string sample.doc), ("code", .string sample.code)] ++
      optionMember "play" .string sample.play ++ textMember "output" sample.output

def Example.shape : Shape Example where
  title := "struct ExampleDoc"
  initial := {}
  fields :=
    [.of "name" .string fun name sample => { sample with name },
     .of "doc" .string fun doc sample => { sample with doc },
     .of "code" .string fun code sample => { sample with code },
     .of "play" (.option .string) fun play sample => { sample with play },
     .of "output" .string fun output sample => { sample with output }]

def Example.decoder : Decoder Example :=
  .record shape

/-! ### Values -/

def Value.toJson (value : Value) : Json :=
  .object <|
    [("names", .strings value.names), ("doc", .string value.doc), ("decl", .string value.decl)] ++
      optionMember "pos" SourcePosition.toJson value.position

def Value.shape : Shape Value where
  title := "struct ValueDoc"
  initial := {}
  fields :=
    [.of "names" (.list .string) fun names value => { value with names },
     .of "doc" .string fun doc value => { value with doc },
     .of "decl" .string fun decl value => { value with decl },
     .of "pos" (.option SourcePosition.decoder) fun position value => { value with position }]

def Value.decoder : Decoder Value :=
  .record shape

/-! ### Functions -/

def Function.toJson (func : Function) : Json :=
  .object <|
    [("name", .string func.name), ("doc", .string func.doc), ("decl", .string func.decl)] ++
      optionMember "recv" .string func.receiver ++
      optionMember "pos" SourcePosition.toJson func.position ++
      listMember "examples" Example.toJson func.examples

def Function.shape : Shape Function where
  title := "struct FuncDoc"
  initial := {}
  fields :=
    [.of "name" .string fun name func => { func with name },
     .of "doc" .string fun doc func => { func with doc },
     .of "decl" .string fun decl func => { func with decl },
     .of "recv" (.option .string) fun receiver func => { func with receiver },
     .of "pos" (.option SourcePosition.decoder) fun position func => { func with position },
     .of "examples" (.list Example.decoder) fun examples func => { func with examples }]

def Function.decoder : Decoder Function :=
  .record shape

/-! ### Types -/

def TypeDecl.toJson (type : TypeDecl) : Json :=
  .object <|
    [("name", .string type.name), ("doc", .string type.doc), ("decl", .string type.decl)] ++
      optionMember "pos" SourcePosition.toJson type.position ++
      listMember "consts" Value.toJson type.consts ++
      listMember "vars" Value.toJson type.vars ++
      listMember "funcs" Function.toJson type.factories ++
      listMember "methods" Function.toJson type.methods ++
      listMember "examples" Example.toJson type.examples

def TypeDecl.shape : Shape TypeDecl where
  title := "struct TypeDoc"
  initial := {}
  fields :=
    [.of "name" .string fun name type => { type with name },
     .of "doc" .string fun doc type => { type with doc },
     .of "decl" .string fun decl type => { type with decl },
     .of "pos" (.option SourcePosition.decoder) fun position type => { type with position },
     .of "consts" (.list Value.decoder) fun consts type => { type with consts },
     .of "vars" (.list Value.decoder) fun vars type => { type with vars },
     .of "funcs" (.list Function.decoder) fun factories type => { type with factories },
     .of "methods" (.list Function.decoder) fun methods type => { type with methods },
     .of "examples" (.list Example.decoder) fun examples type => { type with examples }]

def TypeDecl.decoder : Decoder TypeDecl :=
  .record shape

/-! ### Packages -/

namespace Package

def toJson (package : Package) : Json :=
  .object <|
    [("name", .string package.name), ("import_path", .string package.importPath)] ++
      textMember "project_name" package.projectName ++
      [("doc", .string package.doc)] ++
      optionMember "synopsis" .string package.synopsis? ++
      [("is_command", .bool package.isCommand)] ++
      listMember "consts" Value.toJson package.consts ++
      listMember "vars" Value.toJson package.vars ++
      listMember "funcs" Function.toJson package.functions ++
      listMember "types" TypeDecl.toJson package.types ++
      listMember "examples" Example.toJson package.examples ++
      listMember "subdirectories" .string package.subdirectories

def shape : Shape Package where
  title := "struct Package"
  initial := {}
  fields :=
    [.of "name" .string fun name package => { package with name },
     .of "import_path" .string fun importPath package => { package with importPath },
     .of "project_name" .string fun projectName package => { package with projectName },
     .of "doc" .string fun doc package => { package with doc },
     .of "synopsis" (.option .string) fun synopsis package =>
       { package with synopsis? := synopsis },
     .of "is_command" .bool fun isCommand package => { package with isCommand },
     .of "consts" (.list Value.decoder) fun consts package => { package with consts },
     .of "vars" (.list Value.decoder) fun vars package => { package with vars },
     .of "funcs" (.list Function.decoder) fun functions package => { package with functions },
     .of "types" (.list TypeDecl.decoder) fun types package => { package with types },
     .of "examples" (.list Example.decoder) fun examples package => { package with examples },
     .of "subdirectories" (.list .string) fun subdirectories package =>
       { package with subdirectories }]

def decoder : Decoder Package :=
  .record shape

end Package

/-! ### Packages below another -/

namespace SubPackage

def toJson (sub : SubPackage) : Json :=
  .object [("path", .string sub.path), ("package", sub.package.toJson)]

/-- A package below another of which not all may be known yet. -/
structure Draft where
  path : Option String := none
  package : Option Package := none
  deriving Repr

def Draft.shape : Shape Draft where
  title := "struct SubPackage"
  initial := {}
  fields :=
    [.of "path" .string fun path draft => { draft with path := some path },
     .of "package" Package.decoder fun package draft => { draft with package := some package }]

/-- Why a value that lacks a field is refused. -/
def missing : Json → (name : String) → Cause
  | .array items, _ => .tooFewElements items.length "struct SubPackage with 2 elements"
  | _, name => .missingField name

/-- The package below another that a value stands for. Unlike in a package itself, no field may be
missing. -/
def ofJson (json : Json) : Except Cause SubPackage :=
  match recordOf Draft.shape json with
  | .error cause => .error cause
  | .ok ⟨none, _⟩ => .error (missing json "path")
  | .ok ⟨some _, none⟩ => .error (missing json "package")
  | .ok ⟨some path, some package⟩ => .ok { path, package }

end SubPackage
end PackageReadme
