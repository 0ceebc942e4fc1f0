import PackageReadme.Manifest
import PackageReadme.Proofs.Json.Codes
import PackageReadme.Proofs.Keyed
import PackageReadme.Settings.Coding

/-! Packages, settings and manifests are read back from their JSON texts.

Every record is written in the order of its fields, and what it leaves out is what a record starts
from, so its decoder fits the way it is written (`Codes`). A manifest holds the packages of its text
under their import paths, which packages that state none take over. Main statement:
`parse_compact_toJson`. -/
namespace PackageReadme
open Json

/-! ### Packages -/

theorem SourcePosition.codes : Codes decoder toJson := by
  refine codes_record (by decide) (by simp [shape, Field.apart_of]) fun position =>
    .of_append_nil ?_
  simp only [List.append_assoc, List.cons_append, List.nil_append]
  exact .always codes_string <| .option codes_string rfl <| .always codes_word <| .done _

theorem Example.codes : Codes decoder toJson := by
  refine codes_record (by decide) (by simp [shape, Field.apart_of]) fun sample => .of_append_nil ?_
  simp only [List.append_assoc, List.cons_append, List.nil_append]
  exact .always codes_string <| .always codes_string <| .always codes_string <|
    .option codes_string rfl <|
    .text rfl <| .done _

theorem Value.codes : Codes decoder toJson := by
  refine codes_record (by decide) (by simp [shape, Field.apart_of]) fun value => .of_append_nil ?_
  simp only [List.cons_append, List.nil_append]
  exact .always codes_string.list <| .always codes_string <| .always codes_string <|
    .option SourcePosition.codes rfl <| .done _

theorem Function.codes : Codes decoder toJson := by
  refine codes_record (by decide) (by simp [shape, Field.apart_of]) fun func => .of_append_nil ?_
  simp only [List.append_assoc, List.cons_append, List.nil_append]
  exact .always codes_string <| .always codes_string <| .always codes_string <|
    .option codes_string rfl <|
    .option SourcePosition.codes rfl <| .list Example.codes rfl <| .done _

theorem TypeDecl.codes : Codes decoder toJson := by
  refine codes_record (by decide) (by simp [shape, Field.apart_of]) fun type => .of_append_nil ?_
  simp only [List.append_assoc, List.cons_append, List.nil_append]
  exact .always codes_string <| .always codes_string <| .always codes_string <|
    .option SourcePosition.codes rfl <| .list Value.codes rfl <| .list Value.codes rfl <|
    .list Function.codes rfl <| .list Function.codes rfl <| .list Example.codes rfl <| .done _

theorem Package.codes : Codes decoder toJson := by
  refine codes_record (by decide) (by simp [shape, Field.apart_of]) fun package => .of_append_nil ?_
  simp only [List.append_assoc, List.cons_append, List.nil_append]
  exact .always codes_string <| .always codes_string <| .text rfl <| .always codes_string <|
    .option codes_string rfl <| .always codes_bool <| .list Value.codes rfl <|
    .list Value.codes rfl <| .list Function.codes rfl <| .list TypeDecl.codes rfl <|
    .list Example.codes rfl <| .list codes_string rfl <| .done _

/-! ### Settings -/

theorem Badges.codes : Codes decoder toJson := by
  refine codes_record (by decide) (by simp [shape, Field.apart_of]) fun badges => ?_
  exact .always codes_bool <| .always codes_bool <| .always codes_bool <| .always codes_bool <|
    .always codes_bool <| .done _

theorem Settings.codes : Codes decoder toJson := by
  refine codes_record (by decide) (by simp [shape, Field.apart_of]) fun settings => ?_
  exact .always codes_string <| .always codes_string <| .always codes_bool <| .always codes_bool <|
    .always codes_bool <| .always codes_bool <| .always codes_bool <| .always codes_bool <|
    .always codes_bool <| .always codes_bool <| .always codes_bool <| .always codes_bool <|
    .always Badges.codes <| .always codes_bool <| .done _

/-! ### Manifests -/

namespace Manifest

/-- Packages under their import paths, as JSON. -/
def entriesJson (packages : List (String × Package)) : Json :=
  .object [("packages", .object (packages.map fun entry => (entry.1, entry.2.toJson)))]

theorem parse_entriesJson (path : String) (packages : List (String × Package)) :
    Manifest.parse path (compact (entriesJson packages)) =
      .ok (ofPackages (Keyed.ofEntries packages)) := by
  have hwrites : Writes shape.fields [("packages",
      .object (packages.map fun entry => (entry.1, entry.2.toJson)))]
      shape.initial (Keyed.ofEntries packages) :=
    .present (fun _ => Keyed.ofEntries packages)
      (read_field_of fun rest _ => Package.codes.read_map packages rest)
      (take_field_of (Package.codes.take_map packages)) (.done _)
  have hparse : decoder.parse (compact (entriesJson packages)) = .ok (Keyed.ofEntries packages) :=
    parse_compact_of_read (hwrites.read_record (by decide) [])
  simp [Manifest.parse, hparse]

/-- Packages are put under their paths the way entries are put into a map. -/
theorem packages_ofPackages (packages : List (String × Package)) :
    (ofPackages packages).packages =
      Keyed.ofEntries (packages.map fun entry => (entry.1, settled entry.1 entry.2)) := by
  have hfold (manifest : Manifest) :
      (packages.foldl (fun manifest entry => manifest.insert entry.1 entry.2) manifest).packages =
        (packages.map fun entry => (entry.1, settled entry.1 entry.2)).foldl
          (fun sorted entry => Keyed.insert entry.1 entry.2 sorted) manifest.packages := by
    induction packages generalizing manifest with
    | nil => rfl
    | cons entry packages ih => exact ih (manifest.insert entry.1 entry.2)
  exact hfold {}

/-- A manifest has each package under its path, with that path if it states none. -/
theorem get?_ofPackages {packages : List (String × Package)} (h : (packages.map Prod.fst).Nodup)
    (path : String) :
    (ofPackages packages).get? path = (Keyed.get? path packages).map (settled path) := by
  have hkeys : ((packages.map fun entry => (entry.1, settled entry.1 entry.2)).map
      Prod.fst).Nodup := by
    rw [List.map_map]
    exact h
  rw [get?, packages_ofPackages, Keyed.get?_ofEntries path hkeys, Keyed.get?_map]

end Manifest

/-- **Reading undoes writing**: a package and settings are what their text is read as. The text of
packages under different import paths is read as a manifest that finds each package under its path,
with that path if the package states none, and no package under any other path. -/
theorem parse_compact_toJson :
    (∀ package : Package, Package.decoder.parse package.toJson.compact = .ok package) ∧
      (∀ settings : Settings, Settings.parse settings.toJson.compact = .ok settings) ∧
      ∀ packages : List (String × Package), (packages.map Prod.fst).Nodup →
        ∃ manifest, Manifest.parse Manifest.inlinePath (Manifest.entriesJson packages).compact =
          .ok manifest ∧
          (∀ path package, (path, package) ∈ packages →
            manifest.get path =
              .ok (if package.importPath = "" then { package with importPath := path }
                else package)) ∧
          ∀ path, path ∉ packages.map Prod.fst →
          manifest.get path = .error (.packageNotFound path) := by
  refine ⟨Package.codes.parse_compact, Settings.codes.parse_compact, fun packages hpaths => ?_⟩
  have hget (path : String) : (Manifest.ofPackages (Keyed.ofEntries packages)).get? path =
      (Keyed.get? path packages).map (Manifest.settled path) := by
    rw [Manifest.get?_ofPackages (Keyed.ascending_ofEntries packages).nodup_keys,
      Keyed.get?_ofEntries path hpaths]
  refine ⟨_, Manifest.parse_entriesJson _ packages, fun path package hmem => ?_,
    fun path hnot => ?_⟩
  · rw [Manifest.get, hget, Keyed.get?_eq_some hpaths hmem]
    rfl
  · rw [Manifest.get, hget, Keyed.get?_eq_none path hnot]
    rfl

/-- Two packages, one of which states a path of its own, not in the order of their paths. -/
theorem parse_compact_toJson_two :
    let packages : List (String × Package) :=
      [("b", { name := "beta", doc := "\"b\"\n" }),
        ("a/é", { name := "alpha", importPath := "other" })]
    (packages.map Prod.fst).Nodup ∧
      ∃ manifest, Manifest.parse Manifest.inlinePath (Manifest.entriesJson packages).compact =
        .ok manifest ∧
        manifest.get "b" = .ok { name := "beta", importPath := "b", doc := "\"b\"\n" } ∧
        manifest.get "a/é" = .ok { name := "alpha", importPath := "other" } ∧
        manifest.get "other" = .error (.packageNotFound "other") := by
  intro packages
  have hpaths : (packages.map Prod.fst).Nodup := by
    decide
  obtain ⟨manifest, hparse, hfound, hmissing⟩ := parse_compact_toJson.2.2 packages hpaths
  refine ⟨hpaths, manifest, hparse, ?_, ?_, ?_⟩
  · exact hfound "b" _ (.head _)
  · exact hfound "a/é" _ (.tail _ (.head _))
  · exact hmissing "other" (by decide)

end PackageReadme
