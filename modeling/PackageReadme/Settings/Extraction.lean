import PackageReadme.Decimal.Shortest
import PackageReadme.Settings.Basic
import PackageReadme.Settings.Layer
import PackageReadme.Text.Quoted

/-! Settings out of a layer.

The members of a table are looked at in the order of their names, and the first one that is unknown
or of the wrong kind is the one told of. Badges may also be given as a list, by position. -/
namespace PackageReadme
open Text

/-! ### Faults -/

inductive SettingCause where
  | wrongKind (found : Setting) (expected : String)
  | unknown (name : String) (known : List String)
  deriving Repr

/-- Why a setting was refused, the way to it, and where it comes from. -/
structure SettingFault where
  path : List String
  origin : Origin
  cause : SettingCause
  deriving Repr

/-- A fault, seen from the table that the setting lies below, under a name. -/
def SettingFault.below (fault : SettingFault) (name : String) : SettingFault :=
  { fault with path := name :: fault.path }

def Scalar.found : Scalar → String
  | .nothing => "unit"
  | .bool b => s!"bool {b}"
  | .number (.natural n) => s!"unsigned int `{n}`"
  | .number (.negative n) => if n = 0 then "signed int `0`" else s!"signed int `-{n}`"
  | .number (.binary64 bits) => "float `" ++ Decimal.Style.plain.text bits ++ "`"
  | .text s => "string " ++ quoted s

def Setting.found : Setting → String
  | .scalar _ value => value.found
  | .list .. => "sequence"
  | .table .. => "map"

def SettingCause.text : SettingCause → String
  | .wrongKind found expected => s!"invalid type: found {found.found}, expected {expected}"
  | .unknown name known =>
    s!"unknown field: found `{name}`, expected `one of " ++
      ", ".intercalate (known.map fun name => s!"`{name}`") ++ "`"

/-- Where values of an origin are said to come from. -/
def Origin.place : Origin → String
  | .builtIn | .arguments | .elsewhere => ""
  | .file path => s!" in {path} JSON file"
  | .environment => " in `READMEGEN_` environment variable(s)"

/-- The way to a setting as its origin would name it, if the origin is known. -/
def Origin.key? (origin : Origin) (path : List String) : Option String :=
  match origin with
  | .environment =>
    some (".".intercalate (path.map fun name => String.ofList (name.toList.map Char.toUpper)))
  | .elsewhere => none
  | .builtIn | .file _ | .arguments => some (".".intercalate ("default" :: path))

def SettingFault.text (fault : SettingFault) : String :=
  match fault.origin.key? fault.path with
  | some key => fault.cause.text ++ " for key " ++ quoted key ++ fault.origin.place
  | none => fault.cause.text

/-! ### Values -/

def wrongKind (expected : String) (setting : Setting) : SettingFault :=
  ⟨[], setting.origin, .wrongKind setting expected⟩

def takeBool : Setting → Except SettingFault Bool
  | .scalar _ (.bool b) => .ok b
  | setting => .error (wrongKind "a boolean" setting)

def takeText : Setting → Except SettingFault String
  | .scalar _ (.text s) => .ok s
  | setting => .error (wrongKind "a string" setting)

/-- A named place in records `ρ`, and how a value is put there. -/
structure Slot (ρ : Type) where
  name : String
  take : Setting → Except SettingFault (ρ → ρ)

section
variable {ρ : Type}

def Slot.bool (name : String) (put : Bool → ρ → ρ) : Slot ρ :=
  ⟨name, fun setting => (takeBool setting).map put⟩

def Slot.text (name : String) (put : String → ρ → ρ) : Slot ρ :=
  ⟨name, fun setting => (takeText setting).map put⟩

/-- A record with the members of a table put in place. -/
def fillByName (slots : List (Slot ρ)) (record : ρ) :
    List (String × Setting) → Except SettingFault ρ
  | [] => .ok record
  | (name, setting) :: rest =>
    match slots.find? (·.name = name) with
    | none => .error ⟨[name], setting.origin, .unknown name (slots.map (·.name))⟩
    | some slot =>
      match slot.take setting with
      | .error fault => .error (fault.below name)
      | .ok put => fillByName slots (put record) rest

/-- A record with the items of a list put in place, from a position on; further items do not
count. -/
def fillByPosition (position : Nat) (record : ρ) :
    List (Slot ρ) → List Setting → Except SettingFault ρ
  | slot :: slots, setting :: rest =>
    match slot.take setting with
    | .error fault => .error (fault.below (toString position))
    | .ok put => fillByPosition (position + 1) (put record) slots rest
  | _, _ => .ok record

def takeRecord (title : String) (slots : List (Slot ρ)) (initial : ρ) :
    Setting → Except SettingFault ρ
  | .table _ members => fillByName slots initial members
  | .list _ items => fillByPosition 0 initial slots items
  | setting => .error (wrongKind title setting)

end

/-! ### Settings -/

def Badges.slots : List (Slot Badges) :=
  [.bool "travis_ci" fun travisCi badges => { badges with travisCi },
   .bool "code_cov" fun codeCov badges => { badges with codeCov },
   .bool "golang_ci" fun golangCi badges => { badges with golangCi },
   .bool "go_doc" fun goDoc badges => { badges with goDoc },
   .bool "go_report_card" fun goReportCard badges => { badges with goReportCard }]

def Badges.take : Setting → Except SettingFault Badges :=
  takeRecord "struct Badges" slots {}

def Settings.slots : List (Slot Settings) :=
  [.text "title" fun title settings => { settings with title },
   .text "import_path" fun importPath settings => { settings with importPath },
   .bool "consts" fun consts settings => { settings with consts },
   .bool "vars" fun vars settings => { settings with vars },
   .bool "functions" fun functions settings => { settings with functions },
   .bool "types" fun types settings => { settings with types },
   .bool "factories" fun factories settings => { settings with factories },
   .bool "methods" fun methods settings => { settings with methods },
   .bool "skip_examples" fun skipExamples settings => { settings with skipExamples },
   .bool "skip_sub_packages" fun skipSubPackages settings => { settings with skipSubPackages },
   .bool "no_diff_blocks" fun noDiffBlocks settings => { settings with noDiffBlocks },
   .bool "recursive_sub_packages" fun recursive settings => { settings with recursive },
   ⟨"badges", fun setting => (Badges.take setting).map fun badges settings =>
     { settings with badges }⟩,
   .bool "credit" fun credit settings => { settings with credit }]

def Settings.take : Setting → Except SettingFault Settings :=
  takeRecord "struct RenderConfig" slots {}

end PackageReadme
