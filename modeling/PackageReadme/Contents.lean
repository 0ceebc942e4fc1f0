import PackageReadme.Failure
import PackageReadme.Package.Coding
import PackageReadme.Settings.Coding

/-! The contents of a README: the package, the packages below it, the settings, and what could not
be had. -/
namespace PackageReadme
open Json

structure Contents where
  package : Package
  subPackages : List SubPackage := []
  settings : Settings := {}
  /-- The packages below that are left out, and why. -/
  failures : List FetchFailure := []
  deriving Repr

namespace Contents

/-- The contents without the failures, as JSON. -/
def toJson (contents : Contents) : Json :=
  .object
    [("package", contents.package.toJson),
     ("sub_packages", .array (contents.subPackages.map SubPackage.toJson)),
     ("config", contents.settings.toJson)]

/-- The version that dumps are stamped with. -/
def version : String := "0.2.0"

/-- All of the contents as JSON, stamped with a version and a time. -/
def dump (time : String) (contents : Contents) : Json :=
  .object
    [("version", .string version), ("generated_at", .string time), ("readme", contents.toJson),
     ("fetch_errors", .strings (contents.failures.map FetchFailure.text))]

end Contents
end PackageReadme
