import PackageReadme.Readme

/-! What the settings hide has no influence on a README.

`Contents.erase` empties every list that the settings hide: constants and variables that are not
shown, those of types that are not shown, and the packages below if they are skipped. Where examples
are skipped, they go as well, and so does all that would be looked at only for its examples. A
README is the same without all this, byte for byte (`render_erase`). -/
namespace PackageReadme

/-! ### Erasure -/

/-- Items that are kept or not. -/
def keptIf {α : Type} (kept : Bool) (items : List α) : List α :=
  if kept then items else []

def Function.eraseExamples (settings : Settings) (func : Function) : Function :=
  { func with examples := keptIf (!settings.skipExamples) func.examples }

def TypeDecl.eraseExamples (settings : Settings) (type : TypeDecl) : TypeDecl :=
  { type with
    factories := type.factories.map (Function.eraseExamples settings)
    methods := type.methods.map (Function.eraseExamples settings)
    examples := keptIf (!settings.skipExamples) type.examples }

/-- A package without any examples in it, if they are skipped. -/
def Package.eraseExamples (settings : Settings) (package : Package) : Package :=
  { package with
    functions := package.functions.map (Function.eraseExamples settings)
    types := package.types.map (TypeDecl.eraseExamples settings)
    examples := keptIf (!settings.skipExamples) package.examples }

/-- A type without the lists that the settings hide. -/
def TypeDecl.erase (settings : Settings) (type : TypeDecl) : TypeDecl :=
  let type := type.eraseExamples settings
  { type with
    consts := keptIf (settings.types && settings.consts) type.consts
    vars := keptIf (settings.types && settings.vars) type.vars
    factories :=
      keptIf (!settings.skipExamples || settings.types && settings.factories) type.factories
    methods := keptIf (!settings.skipExamples || settings.types && settings.methods) type.methods }

/-- A package without the lists that the settings hide. -/
def Package.erase (settings : Settings) (package : Package) : Package :=
  { package.eraseExamples settings with
    consts := keptIf settings.consts package.consts
    vars := keptIf settings.vars package.vars
    functions :=
      keptIf (!settings.skipExamples || settings.functions)
        (package.functions.map (Function.eraseExamples settings))
    types :=
      keptIf (!settings.skipExamples || settings.types)
        (package.types.map (TypeDecl.erase settings)) }

def SubPackage.eraseExamples (settings : Settings) (sub : SubPackage) : SubPackage :=
  { sub with package := sub.package.eraseExamples settings }

/-- Contents without all that their settings hide. -/
def Contents.erase (contents : Contents) : Contents :=
  { contents with
    package := contents.package.erase contents.settings
    subPackages :=
      keptIf (!contents.settings.skipSubPackages)
        (contents.subPackages.map (SubPackage.eraseExamples contents.settings)) }

/-! ### Entries -/

section
variable {α β : Type}

/-- A list that is kept where it is shown gives the same entries. -/
theorem entriesIf_keptIf {shown kept : Bool} (h : shown = true → kept = true) (entry : α → β)
    (items : List α) :
    entriesIf shown entry (keptIf kept items) = entriesIf shown entry items := by
  cases shown with
  | false => rfl
  | true => rw [h rfl, keptIf, if_pos rfl]

/-- A list that is kept where it is shown gives the same section. -/
theorem sectionIf_keptIf {shown kept : Bool} (h : shown = true → kept = true)
    (toSection : List β → Section) (entry : α → β) (items : List α) :
    sectionIf shown toSection ((keptIf kept items).map entry) =
      sectionIf shown toSection (items.map entry) := by
  cases shown with
  | false => cases (keptIf kept items).map entry <;> cases items.map entry <;> rfl
  | true => rw [h rfl, keptIf, if_pos rfl]

theorem entriesIf_map {γ : Type} {shown : Bool} {f : α → β} {entry : β → γ} {other : α → γ}
    (h : shown = true → ∀ item, entry (f item) = other item) (items : List α) :
    entriesIf shown entry (items.map f) = entriesIf shown other items := by
  cases shown with
  | false => rfl
  | true =>
    simp only [entriesIf, if_true, List.map_map]
    exact List.map_congr_left fun item _ => h rfl item

end

variable (settings : Settings)

theorem Function.entry_eraseExamples (func : Function) :
    (func.eraseExamples settings).entry settings = func.entry settings := by
  simp only [Function.entry, Function.eraseExamples]
  rw [entriesIf_keptIf id]

theorem SubPackage.entry_eraseExamples (sub : SubPackage) :
    (sub.eraseExamples settings).entry = sub.entry :=
  rfl

/-- The entry of a type that is shown does not depend on what is hidden in it. -/
theorem TypeDecl.entry_erase {settings : Settings} (h : settings.types = true) (type : TypeDecl) :
    (type.erase settings).entry settings = type.entry settings := by
  have hvalues (shown : Bool) : shown = true → (settings.types && shown) = true := by
    rintro rfl
    rw [h]
    rfl
  have hshown (shown : Bool) : shown = true → (!settings.skipExamples || shown) = true := by
    rintro rfl
    exact Bool.or_true _
  simp only [TypeDecl.entry, TypeDecl.erase, TypeDecl.eraseExamples, Settings.showsFactories,
    Settings.showsMethods]
  rw [entriesIf_keptIf (hvalues settings.consts), entriesIf_keptIf (hvalues settings.vars),
    entriesIf_keptIf (hshown (settings.types && settings.factories)),
    entriesIf_keptIf (hshown (settings.types && settings.methods)), entriesIf_keptIf id,
    entriesIf_map fun _ => Function.entry_eraseExamples settings,
    entriesIf_map fun _ => Function.entry_eraseExamples settings]

/-! ### Examples that are not skipped -/

theorem Function.eraseExamples_eq {settings : Settings} (h : settings.skipExamples = false)
    (func : Function) :
    func.eraseExamples settings = func := by
  simp [Function.eraseExamples, h, keptIf]

theorem TypeDecl.promotedExamples_erase {settings : Settings} (h : settings.skipExamples = false)
    (type : TypeDecl) :
    (type.erase settings).promotedExamples settings = type.promotedExamples settings := by
  have hid : Function.eraseExamples settings = id := funext (Function.eraseExamples_eq h)
  simp only [TypeDecl.promotedExamples, TypeDecl.erase, TypeDecl.eraseExamples, h, keptIf, hid,
    Bool.not_false, Bool.true_or, if_true, List.map_id]

/-- Where examples are not skipped, all of them are kept for the section of examples. -/
theorem Package.exampleEntries_erase {settings : Settings} (h : settings.skipExamples = false)
    (package : Package) :
    (package.erase settings).exampleEntries settings = package.exampleEntries settings := by
  have hid : Function.eraseExamples settings = id := funext (Function.eraseExamples_eq h)
  have htypes : (package.types.map (TypeDecl.erase settings)).flatMap
      (TypeDecl.promotedExamples settings) =
      package.types.flatMap (TypeDecl.promotedExamples settings) := by
    rw [List.flatMap_map]
    exact congrArg (fun f => package.types.flatMap f) (funext (TypeDecl.promotedExamples_erase h))
  simp only [Package.exampleEntries, Package.erase, Package.eraseExamples, h, keptIf, hid,
    Bool.not_false, Bool.true_or, if_true, List.map_id, htypes]

/-! ### Sections -/

theorem sectionIf_functions_erase (package : Package) :
    sectionIf settings.functions .functions
      ((package.erase settings).functions.map (Function.entry settings)) =
      sectionIf settings.functions .functions
        (package.functions.map (Function.entry settings)) := by
  have hkept : settings.functions = true →
      (!settings.skipExamples || settings.functions) = true := by
    intro hfunctions
    rw [hfunctions, Bool.or_true]
  have hentries : (package.functions.map (Function.eraseExamples settings)).map
      (Function.entry settings) = package.functions.map (Function.entry settings) := by
    rw [List.map_map]
    exact List.map_congr_left fun func _ => Function.entry_eraseExamples settings func
  rw [Package.erase, sectionIf_keptIf hkept, hentries]

theorem sectionIf_types_erase (package : Package) :
    sectionIf settings.types .types ((package.erase settings).types.map (TypeDecl.entry settings)) =
      sectionIf settings.types .types (package.types.map (TypeDecl.entry settings)) := by
  have hkept : settings.types = true → (!settings.skipExamples || settings.types) = true := by
    intro htypes
    rw [htypes, Bool.or_true]
  rw [Package.erase, sectionIf_keptIf hkept]
  cases htypes : settings.types with
  | false => cases package.types <;> rfl
  | true =>
    rw [List.map_map]
    exact congrArg _ (List.map_congr_left fun type _ => TypeDecl.entry_erase htypes type)

theorem sectionIf_subPackages_erase (subs : List SubPackage) :
    sectionIf (!settings.skipSubPackages) .subPackages
        ((keptIf (!settings.skipSubPackages) (subs.map (SubPackage.eraseExamples settings))).map
          SubPackage.entry) =
      sectionIf (!settings.skipSubPackages) .subPackages (subs.map SubPackage.entry) := by
  rw [sectionIf_keptIf id, List.map_map]
  exact congrArg _ (List.map_congr_left fun sub _ => SubPackage.entry_eraseExamples settings sub)

theorem sectionIf_examples_erase (package : Package) :
    sectionIf (!settings.skipExamples) .examples
      ((package.erase settings).exampleEntries settings) =
      sectionIf (!settings.skipExamples) .examples (package.exampleEntries settings) := by
  cases hskip : settings.skipExamples with
  | true =>
    cases (package.erase settings).exampleEntries settings <;> cases package.exampleEntries
      settings <;> rfl
  | false => rw [Package.exampleEntries_erase hskip]

/-- A README has the same sections without what its settings hide. -/
theorem Contents.sections_erase (contents : Contents) :
    contents.erase.sections = contents.sections := by
  obtain ⟨package, subs, settings, failures⟩ := contents
  have hconsts : sectionIf settings.consts .constants
      ((package.erase settings).consts.map Value.entry) =
      sectionIf settings.consts .constants (package.consts.map Value.entry) :=
    sectionIf_keptIf id _ _ _
  have hvars : sectionIf settings.vars .variables ((package.erase settings).vars.map Value.entry) =
      sectionIf settings.vars .variables (package.vars.map Value.entry) :=
    sectionIf_keptIf id _ _ _
  have htitle : Contents.title (Contents.erase ⟨package, subs, settings, failures⟩) =
      Contents.title ⟨package, subs, settings, failures⟩ :=
    rfl
  simp only [Contents.sections, htitle]
  simp only [Contents.erase, hconsts, hvars, sectionIf_functions_erase, sectionIf_types_erase,
    sectionIf_subPackages_erase, sectionIf_examples_erase]
  rfl

/-- **What the settings hide has no influence on a README**: without all that, it is the same
text. -/
theorem render_erase (contents : Contents) : contents.erase.render = contents.render := by
  have hraw : contents.erase.rawText = contents.rawText := by
    rw [Contents.rawText, Contents.rawText, Contents.sections_erase]
    rfl
  rw [Contents.render, Contents.render, hraw]

end PackageReadme
