import PackageReadme.Contents
import PackageReadme.Declaration
import PackageReadme.Section.Basic

/-! Which sections a README has, and what is in them.

A section stands only if the settings ask for it and it has something to show. Examples stand below
what they belong to if that is shown, and else among the examples of the package, where they take
the name and the comment of their owner if they have none. -/
namespace PackageReadme

/-! ### Entries -/

def Value.entry (value : Value) : ValueEntry :=
  ⟨value.doc, value.decl⟩

def Example.entry (sample : Example) : ExampleEntry :=
  ⟨sample.name, sample.doc, sample.program, sample.output⟩

/-- The entry of an example that stands apart from its owner. -/
def Example.promoted (owner ownerDoc : String) (sample : Example) : ExampleEntry :=
  { sample.entry with
    name := if sample.name = "" then owner else sample.name
    doc := if sample.doc = "" then ownerDoc else sample.doc }

/-- The entries of items that are shown or not. -/
def entriesIf {α β : Type} (shown : Bool) (entry : α → β) (items : List α) : List β :=
  if shown then items.map entry else []

def Function.entry (settings : Settings) (func : Function) : FunctionEntry where
  name := func.name
  receiver := func.receiver
  link := func.position.map SourcePosition.link
  decl := func.decl
  doc := func.doc
  examples := entriesIf (!settings.skipExamples) Example.entry func.examples

def TypeDecl.entry (settings : Settings) (type : TypeDecl) : TypeEntry where
  name := type.name
  link := type.position.map SourcePosition.link
  decl := String.ofList (Declaration.collapseBody type.decl.toList)
  doc := type.doc
  consts := entriesIf settings.consts Value.entry type.consts
  vars := entriesIf settings.vars Value.entry type.vars
  factories := entriesIf settings.showsFactories (Function.entry settings) type.factories
  methods := entriesIf settings.showsMethods (Function.entry settings) type.methods
  examples := entriesIf (!settings.skipExamples) Example.entry type.examples

def SubPackage.entry (sub : SubPackage) : SubPackageEntry :=
  ⟨sub.path, sub.package.synopsis⟩

/-! ### Examples that stand apart -/

/-- The examples of functions, apart from them. -/
def Function.promotedExamples (funcs : List Function) : List ExampleEntry :=
  funcs.flatMap fun func => func.examples.map (Example.promoted func.name func.doc)

/-- The examples of a type and of what is declared around it, as far as their owners are not
shown. -/
def TypeDecl.promotedExamples (settings : Settings) (type : TypeDecl) : List ExampleEntry :=
  (if settings.types then [] else type.examples.map (Example.promoted type.name type.doc)) ++
    (if settings.showsFactories then [] else Function.promotedExamples type.factories) ++
    (if settings.showsMethods then [] else Function.promotedExamples type.methods)

/-- The examples of a package and of all that is not shown. -/
def Package.exampleEntries (settings : Settings) (package : Package) : List ExampleEntry :=
  package.examples.map Example.entry ++
    (if settings.functions then [] else Function.promotedExamples package.functions) ++
    package.types.flatMap (TypeDecl.promotedExamples settings)

/-! ### Sections -/

/-- The section of some entries, if it is asked for and there are any. -/
def sectionIf {α : Type} (shown : Bool) (toSection : List α → Section) : List α → List Section
  | [] => []
  | entry :: rest => if shown then [toSection (entry :: rest)] else []

/-- The name of the package, unless the settings give a title. -/
def Contents.title (contents : Contents) : String :=
  if contents.settings.title = "" then contents.package.name else contents.settings.title

/-- The sections of a README in their order. -/
def Contents.sections (contents : Contents) : List Section :=
  let package := contents.package
  let settings := contents.settings
  [.title contents.title] ++
    sectionIf true .badges (settings.badges.shown package.importPath) ++
    (if package.doc = "" then [] else [.doc package.doc]) ++
    sectionIf settings.consts .constants (package.consts.map Value.entry) ++
    sectionIf settings.vars .variables (package.vars.map Value.entry) ++
    sectionIf settings.functions .functions (package.functions.map (Function.entry settings)) ++
    sectionIf settings.types .types (package.types.map (TypeDecl.entry settings)) ++
    sectionIf (!settings.skipSubPackages) .subPackages
    (contents.subPackages.map SubPackage.entry) ++
    sectionIf (!settings.skipExamples) .examples (package.exampleEntries settings) ++
    (if settings.credit then [.credit] else [])

end PackageReadme
