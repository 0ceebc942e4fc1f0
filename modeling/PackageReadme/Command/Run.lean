import PackageReadme.Command.Failure
import PackageReadme.FileTree.Basic
import PackageReadme.Readme

/-! A run of the command over a tree of files: settings and manifest are read, the README is made,
and it is written to a file or to the standard output. Nothing is written unless all else went well,
but the standard output may break off. -/
namespace PackageReadme

/-- How the standard output breaks off: with a fault, once it has taken a number of bytes. It may
have taken all of them and fail to let go of them. -/
structure Refusal where
  fault : SystemFault
  taken : Nat := 0
  deriving DecidableEq, Repr

/-- What a run depends on besides its arguments. -/
structure World where
  files : FileTree := {}
  environment : List (String × String) := []
  /-- What the working directory is called. -/
  directory : String := "."
  /-- The clock, in milliseconds. -/
  clock : Nat := 0
  /-- The time as dumps are stamped with it. -/
  stamp : String := ""
  /-- How the standard output breaks off, if it does. -/
  refusal : Option Refusal := none

/-- Why a run ends early: it fails, or it breaks down with a message. -/
inductive Halt where
  | failed (failure : CommandFailure)
  | crashed (message : String)
  deriving Repr

def Stop.halt : Stop → Halt
  | .failed failure => .failed (.docs failure)
  | .crashed message => .crashed message

/-! ### Settings -/

/-- Settings for the records, in one line. -/
def Badges.line (badges : Badges) : String :=
  s!"Badges \x7b travis_ci: {badges.travisCi}, code_cov: {badges.codeCov}, " ++
    s!"golang_ci: {badges.golangCi}, go_doc: {badges.goDoc}, " ++
    s!"go_report_card: {badges.goReportCard} \x7d"

def Settings.line (settings : Settings) : String :=
  "RenderConfig \x7b title: " ++ Text.quoted settings.title ++
    ", import_path: " ++ Text.quoted settings.importPath ++
    s!", consts: {settings.consts}, vars: {settings.vars}, functions: {settings.functions}, " ++
    s!"types: {settings.types}, factories: {settings.factories}, methods: {settings.methods}, " ++
    s!"skip_examples: {settings.skipExamples}, skip_sub_packages: {settings.skipSubPackages}, " ++
    s!"no_diff_blocks: {settings.noDiffBlocks}, recursive_sub_packages: {settings.recursive}, " ++
    s!"badges: {settings.badges.line}, credit: {settings.credit} \x7d"

/-- The file that settings are read from: how records name it, and its path. A file that is asked
for must be there. -/
def settingsSource (world : World) (invocation : Invocation) :
    Except CommandFailure (Option (String × String)) :=
  match invocation.config with
  | some path =>
    if world.files.isFile path then .ok (some (path, path)) else .error (.config (.notFound path))
  | none =>
    if world.files.isFile settingsFile then
      .ok (some (world.directory ++ "/" ++ settingsFile, settingsFile))
    else .ok none

/-- The settings of a run, and the records of reading them. -/
def loadSettings (world : World) (invocation : Invocation) :
    Except Halt Settings × List Record :=
  let load (file : Option (String × List UInt8)) : Except Halt Settings :=
    match Environment.layer world.environment with
    | .error broken => .error (.crashed broken.text)
    | .ok layer =>
      (Settings.load invocation file layer).mapError fun fault =>
        .failed (.config (.ofSettings fault))
  match settingsSource world invocation with
  | .error failure => (.error (.failed failure), [])
  | .ok none => (load none, [])
  | .ok (some (name, path)) =>
    let records := [Record.debug .settings s!"Loading configuration from {name}"]
    match world.files.read path with
    | .error fault => (.error (.failed (.config (.unreadable fault))), records)
    | .ok bytes => (load (some (Path.shown world.files.directory path, bytes)), records)

/-! ### Contents -/

/-- The manifest of a run. -/
def readManifest (files : FileTree) (path : String) : Except CommandFailure Manifest :=
  match files.readText path with
  | .error fault => .error (CommandFailure.withPath path (.docs (.inaccessible path fault)))
  | .ok text => (Manifest.parse path text).mapError .docs

/-- The milliseconds that the packages below may take. -/
def fetchTimeout (invocation : Invocation) : Except CommandFailure (Option Nat) :=
  match invocation.timeout with
  | none => .ok none
  | some seconds =>
    if seconds = 0 then .error (.invalidArgument "--timeout must be at least 1 second")
    else .ok (some (seconds.toNat * 1000))

/-- The records of the packages that are left out. -/
def failureRecords (failures : List FetchFailure) : List Record :=
  if failures.isEmpty then []
  else
    Record.warn .command
        s!"{failures.length} sub-packages could not be fetched and are left out of the README" ::
      failures.map fun failure => .warn .command (FetchFailure.text failure)

/-- The text that a run writes, and the records of rendering it. -/
def renderAs (stamp : String) (contents : Contents) :
    Format → Except CommandFailure String × List Record
  | .markdown => (contents.render.mapError .docs, contents.renderRecords)
  | .json => (.ok (contents.dump stamp).pretty, [])

/-- The contents of the README of a run with settings, and the records of getting them. -/
def loadContents (world : World) (invocation : Invocation) (settings : Settings) :
    Except Halt Contents × List Record :=
  match readManifest world.files invocation.manifest with
  | .error failure => (.error (.failed failure), [])
  | .ok manifest =>
    let records :=
      [Record.debug .command s!"Loaded {manifest.size} packages from {invocation.manifest}"]
    match fetchTimeout invocation with
    | .error failure => (.error (.failed failure), records)
    | .ok timeout =>
      let (contents, more) :=
        load (.ofManifest manifest) { settings, timeout } world.clock invocation.importPath
      (contents.mapError Stop.halt, records ++ more)

/-- All that a run does before it writes: the text to write, and the records. -/
def compose (world : World) (invocation : Invocation) : Except Halt String × List Record :=
  match loadSettings world invocation with
  | (.error halt, records) => (.error halt, records)
  | (.ok settings, records) =>
    let records := records ++ [.debug .command s!"Render configuration: {settings.line}"]
    match loadContents world invocation settings with
    | (.error halt, more) => (.error halt, records ++ more)
    | (.ok contents, more) =>
      let (text, rest) := renderAs world.stamp contents invocation.format
      (text.mapError .failed, records ++ more ++ failureRecords contents.failures ++ rest)

/-! ### Writing -/

/-- The file beside an output file that it is written through. -/
def temporary (path : String) : Except CommandFailure String :=
  match Path.fileName? path with
  | some name => .ok (Path.withFileName path ("." ++ name ++ ".tmp"))
  | none => .error (.invalidArgument s!"output path {path} has no file name")

/-- Writes a file through one beside it, so that it is replaced whole or not at all. -/
def replaceFile (files : FileTree) (path : String) (bytes : List UInt8) :
    Except CommandFailure Unit × FileTree :=
  match temporary path with
  | .error failure => (.error failure, files)
  | .ok temporary =>
    match files.write temporary bytes with
    | .error fault =>
      (.error (CommandFailure.inContext s!"Failed to write {temporary}" (.system fault)), files)
    | .ok written =>
      match written.rename temporary path with
      | .error fault =>
        (.error (CommandFailure.inContext s!"Failed to replace {path}" (.system fault)),
          written.remove temporary)
      | .ok replaced => (.ok (), replaced)

/-- Writes bytes to the standard output: whether it takes them, and what it has taken. -/
def World.print (world : World) (bytes : List UInt8) : Except SystemFault Unit × List UInt8 :=
  match world.refusal with
  | none => (.ok (), bytes)
  | some refusal => (.error refusal.fault, bytes.take refusal.taken)

/-- What a run comes to. -/
structure Ran where
  outcome : Except Halt Unit
  /-- What the standard output has taken. -/
  output : List UInt8 := []
  files : FileTree
  records : List Record

/-- Runs the command. -/
def run (world : World) (invocation : Invocation) : Ran :=
  match compose world invocation with
  | (.error halt, records) => { outcome := .error halt, files := world.files, records }
  | (.ok text, records) =>
    match invocation.output with
    | none =>
      match world.print text.toUTF8.toList with
      | (.error fault, output) =>
        { outcome := .error (.failed (.system fault)), output, files := world.files, records }
      | (.ok (), output) => { outcome := .ok (), output, files := world.files, records }
    | some path =>
      match replaceFile world.files path text.toUTF8.toList with
      | (.error failure, files) => { outcome := .error (.failed failure), files, records }
      | (.ok (), files) =>
        let wrote := Record.info .command s!"Wrote {text.utf8ByteSize} bytes to {path}"
        { outcome := .ok (), files, records := records ++ [wrote] }

end PackageReadme
