import PackageReadme.Fetch.Outcome
import PackageReadme.Newlines
import PackageReadme.Section.Assembly
import PackageReadme.Section.Markdown

/-! A README from its package to its text: the package is got and prepared, the packages below it
are fetched, the sections are assembled and rendered, and the text is written. -/
namespace PackageReadme

/-- Why a run ends early: it fails, or it breaks down with a message. -/
inductive Stop where
  | failed (failure : Failure)
  | crashed (message : String)
  deriving Repr

/-! ### Preparation -/

namespace Package

/-- The last part of an import path, slashes at its end aside. -/
def baseName (importPath : String) : String :=
  let path := Text.dropTail (· == '/') importPath.toList
  String.ofList ((Text.cut '/' path).getLast?.getD [])

/-- A command is named for the last part of its import path, or else for its project. -/
def commandName (importPath : String) (package : Package) : String :=
  let base := baseName importPath
  if base != "" && base != "." then base
  else if package.projectName != "" then package.projectName
  else package.name

/-- What the comment of a command may start with, which is left out. -/
def commandStart : String := "Package main is "

def commandDoc (package : Package) : String :=
  match Text.after? commandStart.toList package.doc.toList with
  | some doc => String.ofList doc
  | none => package.doc

/-- The import path that the settings give, or else the package's own, or else where it was
found. -/
def shownPath (importPath : String) (settings : Settings) (package : Package) : String :=
  if settings.importPath != "" then settings.importPath
  else if package.importPath = "" then importPath
  else package.importPath

/-- A package as its README shows it. -/
def prepare (importPath : String) (settings : Settings) (package : Package) : Package :=
  let package :=
    { package with
      subdirectories := package.subdirectories.mergeSort (· ≤ ·)
      importPath := package.shownPath importPath settings }
  if package.isCommand then
    { package with name := package.commandName importPath, doc := package.commandDoc }
  else package

end Package

/-! ### Loading -/

structure LoadOptions where
  settings : Settings := {}
  /-- The milliseconds that fetching the packages below may take. -/
  timeout : Option Nat := none
  maxDepth : Option Nat := none
  deriving Repr

/-- The first millisecond that the clock cannot show, which counts seconds in 63 bits. -/
def clockEnd : Nat := Nat.pow 2 63 * 1000

/-- The time that lies a timeout after a time, unless the clock cannot show it. -/
def deadline (time : Nat) : Option Nat → Except Stop (Option Nat)
  | none => .ok none
  | some timeout =>
    if time + timeout < clockEnd then .ok (some (time + timeout))
    else .error (.crashed "overflow when adding duration to instant")

/-- The fetches below a prepared package, the first of which start at a time. -/
def fetchBelow (source : Source) (options : LoadOptions) (time : Nat) (importPath : String)
    (package : Package) : Except Stop (List Fetch.Fetched) :=
  if options.settings.skipSubPackages then .ok []
  else
    match deadline time options.timeout with
    | .error stop => .error stop
    | .ok deadline =>
      let fetchOptions :=
        { recursive := options.settings.recursive, maxDepth := options.maxDepth, deadline }
      .ok (Fetch.fetchAll source importPath fetchOptions time package.subdirectories
        (Fetch.admits_none _))

/-- The package at an import path, if it has a name. -/
def root (answer : Answers) (importPath : String) : Except Stop Package :=
  match (answer importPath).reply with
  | .crashed message => .error (.crashed message)
  | .refused failure => .error (.failed failure)
  | .found package =>
    if package.isDocumentable then .ok package
    else .error (.failed (.packageNotFound importPath))

def commandRecords (importPath : String) (package : Package) : List Record :=
  if package.isCommand then
    [.debug .loading s!"Treating {importPath} as command {package.name}"]
  else []

/-- The contents of the README of an import path, from a time on, and the records of getting
them. -/
def load (source : Source) (options : LoadOptions) (time : Nat) (importPath : String) :
    Except Stop Contents × List Record :=
  let getting := Record.info .loading s!"Getting {importPath}"
  match root source.answer importPath with
  | .error stop => (.error stop, [getting])
  | .ok package =>
    let package := package.prepare importPath options.settings
    let records := getting :: commandRecords importPath package
    let start := time + (source.answer importPath).delay
    match fetchBelow source options start importPath package with
    | .error stop => (.error stop, records)
    | .ok fetched =>
      let outcome := Fetch.Outcome.ofFetched fetched
      (.ok ⟨package, outcome.packages, options.settings, outcome.failures⟩,
        records ++ fetched.flatMap Fetch.Fetched.records)

/-! ### Rendering -/

namespace Contents

def markdownOptions (contents : Contents) : Markdown.Options :=
  { diffBlocks := !contents.settings.noDiffBlocks }

/-- The text of a README before runs of newlines are limited. -/
def rawText (contents : Contents) : String :=
  String.ofList (Section.renderAll contents.markdownOptions contents.sections)

/-- The text of a README. Its bytes go through a limiter and are read as text again. -/
def render (contents : Contents) : Except Failure String :=
  match Newlines.Limiter.write {} contents.rawText.toUTF8.toList with
  | (none, _) => .error (.unwritten (.reported false "failed to write whole buffer"))
  | (some _, limiter) =>
    match String.fromUTF8? ⟨limiter.sink.bytes.toArray⟩ with
    | some text => .ok text
    | none => .error (.other "rendered README is not valid UTF-8")

/-- The records of rendering. -/
def renderRecords (contents : Contents) : List Record :=
  [.debug .loading ("Rendering README from data:\n" ++ contents.toJson.pretty),
   .debug .assembly ("Assembled sections: " ++
     ", ".intercalate (contents.sections.map Section.name))]

end Contents

/-! ### Writing -/

/-- A stream for the text, which may refuse to take it or to let go of it. -/
structure Output where
  writeFault : Option SystemFault := none
  flushFault : Option SystemFault := none
  deriving DecidableEq, Repr

/-- What is told of a README that was written. -/
structure Report where
  bytesWritten : Nat
  /-- The packages below that are left out, if there are any. -/
  failures : Option (List FetchFailure)
  deriving Repr

/-- What creating a README comes to: the report, what reached the output, and the records. -/
structure Creation where
  report : Except Stop Report
  written : String := ""
  records : List Record := []

def Contents.report (contents : Contents) (text : String) : Report where
  bytesWritten := text.utf8ByteSize
  failures := if contents.failures.isEmpty then none else some contents.failures

/-- Writes a text and flushes the output; the text has arrived unless it was refused. -/
def Output.put (output : Output) (text : String) : Except Failure Unit × String :=
  match output.writeFault, output.flushFault with
  | some fault, _ => (.error (.unwritten fault), "")
  | none, some fault => (.error (.unwritten fault), text)
  | none, none => (.ok (), text)

/-- Renders contents and puts the text out: the report and what reached the output. Nothing is
written unless the contents can be rendered. -/
def Contents.publish (contents : Contents) (output : Output) : Except Stop Report × String :=
  match contents.render with
  | .error failure => (.error (.failed failure), "")
  | .ok text =>
    match output.put text with
    | (.error failure, written) => (.error (.failed failure), written)
    | (.ok (), written) => (.ok (contents.report text), written)

/-- Creates the README of an import path, from a time on. -/
def create (source : Source) (options : LoadOptions) (output : Output) (time : Nat)
    (importPath : String) : Creation :=
  match load source options time importPath with
  | (.error stop, records) => { report := .error stop, records }
  | (.ok contents, records) =>
    let (report, written) := contents.publish output
    { report, written, records := records ++ contents.renderRecords }

end PackageReadme
