import PackageReadme.Failure
import PackageReadme.Keyed
import PackageReadme.Package.Coding

/-! Manifests: the packages that are known, by import path. -/
namespace PackageReadme
open Json

structure Manifest where
  packages : Keyed Package := []
  deriving Repr

namespace Manifest

def size (manifest : Manifest) : Nat :=
  manifest.packages.length

def isEmpty (manifest : Manifest) : Bool :=
  manifest.packages.isEmpty

/-- A package that states no import path has the one it is found under. -/
def settled (importPath : String) (package : Package) : Package :=
  if package.importPath = "" then { package with importPath } else package

/-- Puts a package under an import path, in place of one that is there. -/
def insert (manifest : Manifest) (importPath : String) (package : Package) : Manifest :=
  ⟨Keyed.insert importPath (settled importPath package) manifest.packages⟩

def get? (manifest : Manifest) (importPath : String) : Option Package :=
  Keyed.get? importPath manifest.packages

/-- The package under an import path, or the failure to find it. -/
def get (manifest : Manifest) (importPath : String) : Except Failure Package :=
  match manifest.get? importPath with
  | some package => .ok package
  | none => .error (.packageNotFound importPath)

def ofPackages (packages : List (String × Package)) : Manifest :=
  packages.foldl (fun manifest (importPath, package) => manifest.insert importPath package) {}

/-! ### Texts -/

def shape : Shape (Keyed Package) where
  title := "struct Manifest"
  initial := []
  fields := [.of "packages" (.map Package.decoder) fun packages _ => packages]

def decoder : Decoder (Keyed Package) :=
  .record shape

/-- The manifest that a JSON text holds; `path` is where the text comes from. -/
def parse (path : String) (text : String) : Except Failure Manifest :=
  match decoder.parse text with
  | .ok packages => .ok (ofPackages packages)
  | .error rejection => .error (.invalidManifest path rejection.message)

/-- The path of a manifest that comes from no file. -/
def inlinePath : String := "<inline>"

end Manifest
end PackageReadme
