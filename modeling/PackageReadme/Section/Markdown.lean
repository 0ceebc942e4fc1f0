import PackageReadme.Markdown
import PackageReadme.Section.Basic

/-! Sections as Markdown. Runs of newlines may get longer than they should; they are limited
later. -/
namespace PackageReadme
open Text

namespace Markdown

/-- A heading of a level, with a void line after it. -/
def heading (level : Nat) (text : String) : List Char :=
  List.replicate level '#' ++ [' '] ++ text.toList ++ ['\n', '\n']

/-- Code between fences, without the newlines at its end. -/
def fenced (tag : String) (text : String) : List Char :=
  fence ++ tag.toList ++ ['\n'] ++ dropTail (· == '\n') text.toList ++ ['\n'] ++ fence ++
    ['\n', '\n']

/-- A declaration as a code span, with a void line after it. -/
def declaration (decl : String) : List Char :=
  ['\x60'] ++ trimEnd decl.toList ++ ['\x60', '\n', '\n']

def comment (options : Options) (doc : String) : List Char :=
  ofComment options doc.toList

/-- A name that links to an address, if there is one. -/
def linked (name : String) : Option String → String
  | none => name
  | some link => s!"[{name}]({link})"

end Markdown

open Markdown

/-! ### Entries -/

def Badge.render (badge : Badge) : List Char :=
  s!"[![{badge.alt}]({badge.image})]({badge.link})\n".toList

def ValueEntry.render (options : Options) (entry : ValueEntry) : List Char :=
  comment options entry.doc ++ fenced "go" entry.decl

/-- The comment, the code and the output of an example, below its heading. -/
def ExampleEntry.body (options : Options) (entry : ExampleEntry) : List Char :=
  comment options entry.doc ++ fenced "go" entry.code ++
    if (trim entry.output.toList).isEmpty then []
      else "Output:\n\n".toList ++ fenced "" entry.output

/-- An example below what it belongs to. -/
def ExampleEntry.inside (options : Options) (level : Nat) (entry : ExampleEntry) : List Char :=
  let name := String.ofList (trim entry.name.toList)
  heading level (if name = "" then "Example" else s!"Example {name}") ++ entry.body options

/-- An example among the examples of the package. -/
def ExampleEntry.apart (options : Options) (entry : ExampleEntry) : List Char :=
  let name := String.ofList (trim entry.name.toList)
  heading 3 (if name = "" then "Example" else name) ++ entry.body options

def FunctionEntry.title (entry : FunctionEntry) : String :=
  match entry.receiver with
  | none => "func " ++ linked entry.name entry.link
  | some receiver => s!"func ({receiver}) " ++ linked entry.name entry.link

def FunctionEntry.render (options : Options) (level : Nat) (entry : FunctionEntry) : List Char :=
  heading level entry.title ++ declaration entry.decl ++ comment options entry.doc ++
    entry.examples.flatMap (ExampleEntry.inside options (level + 1))

def TypeEntry.render (options : Options) (entry : TypeEntry) : List Char :=
  heading 3 ("type " ++ linked entry.name entry.link) ++ declaration entry.decl ++
    comment options entry.doc ++
    entry.consts.flatMap (ValueEntry.render options) ++
    entry.vars.flatMap (ValueEntry.render options) ++
    entry.factories.flatMap (FunctionEntry.render options 4) ++
    entry.methods.flatMap (FunctionEntry.render options 4) ++
    entry.examples.flatMap (ExampleEntry.inside options 4)

def SubPackageEntry.render (entry : SubPackageEntry) : List Char :=
  s!"* [{entry.path}](./{entry.path})".toList ++
    (if entry.synopsis = "" then [] else ": ".toList ++ entry.synopsis.toList) ++ ['\n']

/-! ### Sections -/

/-- The last line of a README that says where it comes from. -/
def creditLine : String :=
  "Readme created from Go doc with readmegen"

namespace Section

def render (options : Options) : Section → List Char
  | .title text => heading 1 text
  | .badges entries => entries.flatMap Badge.render ++ ['\n']
  | .doc text => comment options text
  | .constants entries => heading 2 "Constants" ++ entries.flatMap (ValueEntry.render options)
  | .variables entries => heading 2 "Variables" ++ entries.flatMap (ValueEntry.render options)
  | .functions entries => heading 2 "Functions" ++ entries.flatMap (FunctionEntry.render options 3)
  | .types entries => heading 2 "Types" ++ entries.flatMap (TypeEntry.render options)
  | .subPackages entries =>
    heading 2 "Sub Packages" ++ entries.flatMap SubPackageEntry.render ++ ['\n']
  | .examples entries => heading 2 "Examples" ++ entries.flatMap (ExampleEntry.apart options)
  | .credit => "---\n\n".toList ++ creditLine.toList ++ ['\n']

/-- The Markdown of sections one after the other. -/
def renderAll (options : Options) (sections : List Section) : List Char :=
  sections.flatMap (render options)

end Section
end PackageReadme
