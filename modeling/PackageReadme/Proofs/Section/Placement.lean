import Mathlib.Data.List.Perm.Basic
import PackageReadme.Section.Assembly

/-! Where the examples of a package stand.

Every example has an owner: the package, a function, a type, or a factory or method of a type.
`examples_placed`: unless examples are left out, each of them stands in one place of the README and
no other, below its owner if that is shown and among the examples of the package if not. So
promotion neither loses nor repeats an example. -/
namespace PackageReadme

/-! ### Owners -/

/-- What an example belongs to. -/
inductive Owner where
  | package
  | function (func : Function)
  | type (decl : TypeDecl)
  | factory (decl : TypeDecl) (func : Function)
  | method (decl : TypeDecl) (func : Function)

/-- The examples of functions, with the functions as owners of a kind. -/
def Function.owned (owner : Function → Owner) (funcs : List Function) : List (Owner × Example) :=
  funcs.flatMap fun func => func.examples.map (owner func, ·)

/-- The examples of a type and of what is declared around it, with their owners. -/
def TypeDecl.owned (type : TypeDecl) : List (Owner × Example) :=
  type.examples.map (.type type, ·) ++ Function.owned (.factory type) type.factories ++
    Function.owned (.method type) type.methods

/-- All examples of a package, with their owners. -/
def Package.owned (package : Package) : List (Owner × Example) :=
  package.examples.map (.package, ·) ++ Function.owned .function package.functions ++
    package.types.flatMap TypeDecl.owned

/-! ### Places -/

/-- Where an example stands: apart, or below an entry. -/
inductive Place where
  | apart
  | function (entry : FunctionEntry)
  | type (entry : TypeEntry)
  | factory (type : TypeEntry) (entry : FunctionEntry)
  | method (type : TypeEntry) (entry : FunctionEntry)
  deriving DecidableEq

def FunctionEntry.placed (place : FunctionEntry → Place) (entries : List FunctionEntry) :
    List (Place × ExampleEntry) :=
  entries.flatMap fun entry => entry.examples.map (place entry, ·)

def TypeEntry.placed (entry : TypeEntry) : List (Place × ExampleEntry) :=
  entry.examples.map (.type entry, ·) ++ FunctionEntry.placed (.factory entry) entry.factories ++
    FunctionEntry.placed (.method entry) entry.methods

/-- The examples that a section holds, with their places. -/
def Section.placed : Section → List (Place × ExampleEntry)
  | .title _ => []
  | .badges _ => []
  | .doc _ => []
  | .constants _ => []
  | .variables _ => []
  | .functions entries => FunctionEntry.placed .function entries
  | .types entries => entries.flatMap TypeEntry.placed
  | .subPackages _ => []
  | .examples entries => entries.map (.apart, ·)
  | .credit => []

/-! ### Which place an example has -/

namespace Owner

def name : Owner → String
  | .package => ""
  | .function func => func.name
  | .type decl => decl.name
  | .factory _ func => func.name
  | .method _ func => func.name

def doc : Owner → String
  | .package => ""
  | .function func => func.doc
  | .type decl => decl.doc
  | .factory _ func => func.doc
  | .method _ func => func.doc

/-- Where the examples of an owner stand, if it is shown. Those of the package always stand
apart. -/
def place? (settings : Settings) : Owner → Option Place
  | .package => some .apart
  | .function func => if settings.functions then some (.function (func.entry settings)) else none
  | .type decl => if settings.types then some (.type (decl.entry settings)) else none
  | .factory decl func =>
    if settings.types && settings.factories then
      some (.factory (decl.entry settings) (func.entry settings))
    else none
  | .method decl func =>
    if settings.types && settings.methods then
      some (.method (decl.entry settings) (func.entry settings))
    else none

/-- An example in its place: as it is where its owner is shown, and else apart, with the name and
the comment of its owner in place of those that it lacks. -/
def settle (settings : Settings) (owned : Owner × Example) : Place × ExampleEntry :=
  let (owner, sample) := owned
  let code := (sample.play.filter (· ≠ "")).getD sample.code
  match owner.place? settings with
  | some place => (place, ⟨sample.name, sample.doc, code, sample.output⟩)
  | none =>
    (.apart,
      { name := if sample.name = "" then owner.name else sample.name
        doc := if sample.doc = "" then owner.doc else sample.doc
        code := code
        output := sample.output })

end Owner

open Owner (settle)

theorem Example.program_eq (sample : Example) :
    sample.program = (sample.play.filter (· ≠ "")).getD sample.code := by
  simp only [Example.program]
  cases sample.play with
  | none => rfl
  | some play => by_cases h : play = "" <;> simp [h, Option.filter]

theorem settle_of_place {settings : Settings} {owner : Owner} {place : Place}
    (h : owner.place? settings = some place) (sample : Example) :
    settle settings (owner, sample) = (place, sample.entry) := by
  simp only [settle, h, Example.entry, Example.program_eq]

theorem settle_of_hidden {settings : Settings} {owner : Owner} (h : owner.place? settings = none)
    (sample : Example) :
    settle settings (owner, sample) = (.apart, sample.promoted owner.name owner.doc) := by
  simp only [settle, h, Example.promoted, Example.entry, Example.program_eq]

/-! ### Shown or apart -/

/-- The examples of functions that are shown or not: those in place and those that stand apart are
all. -/
theorem placed_append_promoted {settings : Settings} (hskip : settings.skipExamples = false)
    (shown : Bool) (owner : Function → Owner) (place : FunctionEntry → Place)
    (hshown : ∀ func, (owner func).place? settings = if shown
      then some (place (func.entry settings)) else none)
    (hname : ∀ func, (owner func).name = func.name) (hdoc : ∀ func, (owner func).doc = func.doc)
    (funcs : List Function) :
    FunctionEntry.placed place (entriesIf shown (Function.entry settings) funcs) ++
        (if shown then [] else Function.promotedExamples funcs).map (Place.apart, ·) =
      (Function.owned owner funcs).map (settle settings) := by
  cases shown with
  | true =>
    have hplace : ∀ func sample, settle settings (owner func, sample) =
        (place (func.entry settings), sample.entry) := fun func => settle_of_place (hshown func)
    simp [FunctionEntry.placed, entriesIf, Function.owned, Function.entry, hskip, hplace,
      List.map_flatMap, List.flatMap_map, Function.comp_def]
  | false =>
    have happart : ∀ func sample, settle settings (owner func, sample) =
        (.apart, sample.promoted func.name func.doc) := fun func sample => by
      rw [settle_of_hidden (hshown func), hname, hdoc]
    simp [FunctionEntry.placed, entriesIf, Function.owned, Function.promotedExamples, happart,
      List.map_flatMap, Function.comp_def]

/-- The examples of a type itself that are shown in place. -/
def TypeDecl.placedExamples (settings : Settings) (decl : TypeDecl) : List (Place × ExampleEntry) :=
  if settings.types then decl.examples.map fun sample =>
    (.type (decl.entry settings), sample.entry) else []

theorem placedExamples_append_promoted (settings : Settings) (decl : TypeDecl) :
    decl.placedExamples settings ++
        (if settings.types then [] else decl.examples.map (Example.promoted decl.name decl.doc)).map
          (Place.apart, ·) =
      (decl.examples.map (Owner.type decl, ·)).map (settle settings) := by
  cases htypes : settings.types with
  | true =>
    have hplace : (Owner.type decl).place? settings = some (.type (decl.entry settings)) := by
      rw [Owner.place?, htypes, if_pos rfl]
    simp [TypeDecl.placedExamples, htypes, settle_of_place hplace, Function.comp_def]
  | false =>
    have hhidden : (Owner.type decl).place? settings = none := by
      rw [Owner.place?, htypes, if_neg Bool.false_ne_true]
    simp [TypeDecl.placedExamples, htypes, settle_of_hidden hhidden, Owner.name, Owner.doc,
      Function.comp_def]

theorem append_shuffle {α : Type} [DecidableEq α] (a b c a' b' c' : List α) :
    (a ++ b ++ c ++ (a' ++ b' ++ c')).Perm (a ++ a' ++ (b ++ b') ++ (c ++ c')) := by
  apply List.perm_iff_count.mpr
  intro x
  simp only [List.count_append]
  omega

/-- Factories and methods are shown only with their type, so a type that is not shown places
nothing. -/
theorem placed_entry {settings : Settings} (hskip : settings.skipExamples = false)
    (decl : TypeDecl) :
    (if settings.types then (decl.entry settings).placed else []) =
      decl.placedExamples settings ++
        FunctionEntry.placed (.factory (decl.entry settings))
          (entriesIf settings.showsFactories (Function.entry settings) decl.factories) ++
        FunctionEntry.placed (.method (decl.entry settings))
          (entriesIf settings.showsMethods (Function.entry settings) decl.methods) := by
  cases htypes : settings.types with
  | true =>
    have hexamples : (decl.entry settings).examples = decl.examples.map Example.entry := by
      simp [TypeDecl.entry, entriesIf, hskip]
    rw [if_pos rfl, TypeEntry.placed, hexamples, List.map_map, TypeDecl.placedExamples,
      htypes, if_pos rfl]
    rfl
  | false =>
    simp [TypeDecl.placedExamples, Settings.showsFactories, Settings.showsMethods, entriesIf,
      FunctionEntry.placed, htypes]

/-- The examples around one type: those in place and those that stand apart are all. -/
theorem placed_type_perm {settings : Settings} (hskip : settings.skipExamples = false)
    (decl : TypeDecl) :
    ((if settings.types then (decl.entry settings).placed else []) ++
        (decl.promotedExamples settings).map (Place.apart, ·)).Perm
      (decl.owned.map (settle settings)) := by
  have hfactories := placed_append_promoted hskip settings.showsFactories (.factory decl)
    (.factory (decl.entry settings)) (fun _ => rfl) (fun _ => rfl) (fun _ => rfl) decl.factories
  have hmethods := placed_append_promoted hskip settings.showsMethods (.method decl)
    (.method (decl.entry settings)) (fun _ => rfl) (fun _ => rfl) (fun _ => rfl) decl.methods
  rw [placed_entry hskip, TypeDecl.promotedExamples, List.map_append, List.map_append,
    TypeDecl.owned, List.map_append, List.map_append, ← placedExamples_append_promoted,
    ← hfactories, ← hmethods]
  exact append_shuffle ..

/-! ### Sections -/

/-- A section holds the examples of its entries, whether or not it stands. -/
theorem flatMap_placed_sectionIf {α : Type} (shown : Bool) (toSection : List α → Section)
    (hnil : (toSection []).placed = []) (entries : List α) :
    (sectionIf shown toSection entries).flatMap Section.placed =
      if shown then (toSection entries).placed else [] := by
  cases entries with
  | nil =>
    rw [hnil]
    cases shown <;> rfl
  | cons entry rest => cases shown <;> simp [sectionIf]

theorem Contents.flatMap_placed (contents : Contents) :
    contents.sections.flatMap Section.placed =
      (if contents.settings.functions then
        FunctionEntry.placed .function (contents.package.functions.map
          (Function.entry contents.settings))
      else []) ++
      (if contents.settings.types then
        (contents.package.types.map (TypeDecl.entry contents.settings)).flatMap TypeEntry.placed
      else []) ++
      (if !contents.settings.skipExamples then
        (contents.package.exampleEntries contents.settings).map (Place.apart, ·)
      else []) := by
  have hdoc : (if contents.package.doc = "" then [] else [Section.doc contents.package.doc]).flatMap
      Section.placed = [] := by
    split <;> rfl
  have hcredit : (if contents.settings.credit then [Section.credit] else []).flatMap
      Section.placed = [] := by
    split <;> rfl
  simp only [Contents.sections, List.flatMap_append, hdoc, hcredit, List.flatMap_cons,
    List.flatMap_nil, flatMap_placed_sectionIf _ Section.badges rfl,
    flatMap_placed_sectionIf _ Section.constants rfl,
    flatMap_placed_sectionIf _ Section.variables rfl,
    flatMap_placed_sectionIf _ Section.functions rfl, flatMap_placed_sectionIf _ Section.types rfl,
    flatMap_placed_sectionIf _ Section.subPackages rfl,
    flatMap_placed_sectionIf _ Section.examples rfl, Section.placed, ite_self, List.append_nil,
    List.nil_append]

/-! ### The whole README -/

theorem placed_types_perm {settings : Settings} (hskip : settings.skipExamples = false)
    (types : List TypeDecl) :
    ((if settings.types then (types.map (TypeDecl.entry settings)).flatMap TypeEntry.placed else [])
        ++ (types.flatMap (TypeDecl.promotedExamples settings)).map (Place.apart, ·)).Perm
      ((types.flatMap TypeDecl.owned).map (settle settings)) := by
  have hinline : (if settings.types
      then (types.map (TypeDecl.entry settings)).flatMap TypeEntry.placed else []) =
      types.flatMap fun decl => if settings.types then (decl.entry settings).placed else [] := by
    cases settings.types <;> simp [List.flatMap_map]
  rw [hinline, List.map_flatMap, List.map_flatMap]
  exact (List.flatMap_append_perm ..).trans
    (.flatMap_left _ fun decl _ => placed_type_perm hskip decl)

theorem placed_perm {contents : Contents} (hskip : contents.settings.skipExamples = false) :
    (contents.sections.flatMap Section.placed).Perm
      (contents.package.owned.map (settle contents.settings)) := by
  have hplace : Owner.package.place? contents.settings = some .apart := rfl
  have hpackage : (contents.package.examples.map Example.entry).map (Place.apart, ·) =
      (contents.package.examples.map (Owner.package, ·)).map (settle contents.settings) := by
    simp [settle_of_place hplace]
  have hfunctions := placed_append_promoted hskip contents.settings.functions .function .function
    (fun _ => rfl) (fun _ => rfl) (fun _ => rfl) contents.package.functions
  have hinline : FunctionEntry.placed .function (entriesIf contents.settings.functions
        (Function.entry contents.settings) contents.package.functions) =
      if contents.settings.functions then FunctionEntry.placed .function
        (contents.package.functions.map (Function.entry contents.settings)) else [] := by
    cases contents.settings.functions <;> rfl
  rw [hinline] at hfunctions
  rw [contents.flatMap_placed, hskip, Bool.not_false, if_pos rfl, Package.exampleEntries,
    List.map_append, List.map_append, Package.owned, List.map_append, List.map_append,
    ← hfunctions, ← hpackage]
  exact (append_shuffle [] ..).trans ((List.Perm.refl _).append (placed_types_perm hskip _))

/-- Without examples, no entry has any. -/
theorem placed_eq_nil {contents : Contents} (hskip : contents.settings.skipExamples = true) :
    contents.sections.flatMap Section.placed = [] := by
  have hfunctions : ∀ (shown : Bool) (place : FunctionEntry → Place) (funcs : List Function),
      FunctionEntry.placed place (entriesIf shown
        (Function.entry contents.settings) funcs) = [] := by
    intro shown place funcs
    cases shown <;> simp [FunctionEntry.placed, entriesIf, Function.entry, hskip]
  have htype : ∀ decl : TypeDecl, (decl.entry contents.settings).placed = [] := by
    intro decl
    rw [TypeEntry.placed]
    simp only [TypeDecl.entry, hfunctions]
    simp [entriesIf, hskip]
  rw [contents.flatMap_placed, hskip]
  have hmap := hfunctions true .function contents.package.functions
  rw [entriesIf, if_pos rfl] at hmap
  simp [hmap, List.flatMap_map, htype]

/-- **Every example stands in one place**: below its owner if that is shown, with its own name and
comment, and else apart, with those of its owner in place of what it lacks. In particular the
programs and outputs of the examples are those of the package, each as often as there. Where
examples are left out, there are none. -/
theorem examples_placed (contents : Contents) :
    (contents.settings.skipExamples = false →
      (contents.sections.flatMap Section.placed).Perm
        (contents.package.owned.map (settle contents.settings)) ∧
      ((contents.sections.flatMap Section.placed).map fun placed =>
        (placed.2.code, placed.2.output)).Perm
        (contents.package.owned.map fun owned =>
          ((owned.2.play.filter (· ≠ "")).getD owned.2.code, owned.2.output))) ∧
      (contents.settings.skipExamples = true → contents.sections.flatMap Section.placed = []) := by
  refine ⟨fun hskip => ⟨placed_perm hskip, ?_⟩, placed_eq_nil⟩
  refine ((placed_perm hskip).map _).trans (.of_eq ?_)
  rw [List.map_map]
  apply List.map_congr_left
  rintro ⟨owner, sample⟩ _
  cases hplace : owner.place? contents.settings with
  | some place => simp only [Function.comp_apply, settle, hplace]
  | none => simp only [Function.comp_apply, settle, hplace]

end PackageReadme
