import PackageReadme.Arguments.Invocation
import PackageReadme.Json.Reader
import PackageReadme.Settings.Coding
import PackageReadme.Settings.Environment
import PackageReadme.Settings.Extraction

/-! Settings from all their sources: what is built in, below a file, below the environment, below
the arguments. Arguments only turn things on, so that one that is not given hides nothing. -/
namespace PackageReadme

/-! ### Layers -/

/-- What is built in. -/
def Settings.builtIn : Setting :=
  .ofJson .builtIn (toJson {})

/-- Members for the switches that are on. -/
def Invocation.switched (invocation : Invocation) (names : List (String × Switch)) :
    List (String × Json) :=
  names.filterMap fun (name, switch) =>
    if invocation.isOn switch then some (name, .bool true) else none

def Invocation.badgesGiven (invocation : Invocation) : List (String × Json) :=
  invocation.switched
    [("travis_ci", .badgeTravisCi), ("code_cov", .badgeCodeCov), ("golang_ci", .badgeGolangCi),
     ("go_doc", .badgeGoDoc), ("go_report_card", .badgeGoReportCard)]

/-- The settings that arguments give. -/
def Invocation.given (invocation : Invocation) : List (String × Json) :=
  Json.optionMember "title" .string invocation.title ++
    Json.optionMember "import_path" .string invocation.shownPath ++
    invocation.switched
      [("consts", .consts), ("vars", .vars), ("functions", .functions), ("types", .types),
       ("factories", .factories), ("methods", .methods), ("skip_examples", .skipExamples),
       ("skip_sub_packages", .skipSubPackages), ("no_diff_blocks", .noDiffBlocks),
       ("recursive_sub_packages", .recursive), ("credit", .credit)] ++
    (if invocation.badgesGiven.isEmpty then [] else [("badges", .object invocation.badgesGiven)])

/-- The layer of the arguments. -/
def Invocation.layer (invocation : Invocation) : Setting :=
  .ofJson .arguments (.object invocation.given)

/-! ### Files -/

/-- Why a file gives no settings. -/
inductive LayerFault where
  | notText
  | rejected (rejection : Json.Rejection)
  deriving Repr

def LayerFault.text : LayerFault → String
  | .notText => "stream did not contain valid UTF-8"
  | .rejected rejection => rejection.message

/-- The layer of a file with some bytes; its text holds an object. -/
def fileLayer (path : String) (bytes : List UInt8) : Except LayerFault Setting :=
  match String.fromUTF8? ⟨bytes.toArray⟩ with
  | none => .error .notText
  | some text =>
    match
      (Json.Decoder.map (.marked (· = Setting.originMember) (Json.depthLimit - 1))).parse text
    with
    | .error rejection => .error (.rejected rejection)
    | .ok members =>
      .ok (.table (.file path) (members.map fun (name, json) => (name, .ofJson (.file path) json)))

/-! ### All layers -/

/-- Why settings could not be had: a file that is no layer, or a setting in one of the layers. -/
inductive SettingsFault where
  | file (path : String) (fault : LayerFault)
  | setting (fault : SettingFault)
  deriving Repr

/-- The way to the setting at fault, or a word for all settings if there is none. -/
def SettingsFault.field : SettingsFault → String
  | .file .. => "configuration"
  | .setting fault =>
    let path := ".".intercalate fault.path
    if path.isEmpty then "configuration" else path

def SettingsFault.text : SettingsFault → String
  | .file path fault => fault.text ++ (Origin.file path).place
  | .setting fault => fault.text

/-- The settings of an invocation, with the bytes of a file if there is one, and the layer of the
environment. -/
def Settings.load (invocation : Invocation) (file : Option (String × List UInt8))
    (environment : Setting) : Except SettingsFault Settings :=
  let above (layer : Setting) : Except SettingsFault Settings :=
    (take (invocation.layer.laidOver (environment.laidOver layer))).mapError .setting
  match file with
  | none => above builtIn
  | some (path, bytes) =>
    match fileLayer path bytes with
    | .error fault => .error (.file path fault)
    | .ok layer => above (layer.laidOver builtIn)

end PackageReadme
