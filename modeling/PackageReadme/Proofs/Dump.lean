import PackageReadme.Contents
import PackageReadme.Proofs.Json.Pretty
import PackageReadme.Proofs.RoundTrip

/-! A dump keeps the contents of a README.

Records lie in one another only so deep, far from the limit of what is read, so that the text of a
dump is read as the value that was written (`Fits`). From there each part of the contents is taken
back (`Codes`), and the failures are listed beside the contents and not in them. Main statement:
`dump_keeps_contents`. -/
namespace PackageReadme
open Json

/-! ### How deep records are -/

theorem SourcePosition.fits (depth : Nat) (position : SourcePosition) :
    Fits (depth + 1) position.toJson := by
  have hline : position.line.toNat ≤ maxNatural :=
    Nat.le_of_lt (Nat.lt_trans position.line.toNat_lt (by decide))
  refine .of_append_nil ?_
  simp only [List.append_assoc, List.cons_append, List.nil_append]
  exact .always (.string _) <| .option .string <| .always (.nat hline) .done

theorem Example.fits (depth : Nat) (sample : Example) : Fits (depth + 1) sample.toJson := by
  refine .of_append_nil ?_
  simp only [List.append_assoc, List.cons_append, List.nil_append]
  exact .always (.string _) <| .always (.string _) <| .always (.string _) <|
    .option .string <| .text .done

theorem Value.fits (depth : Nat) (value : Value) : Fits (depth + 2) value.toJson := by
  refine .of_append_nil ?_
  simp only [List.cons_append, List.nil_append]
  exact .always (.list .string _) <| .always (.string _) <| .always (.string _) <|
    .option (SourcePosition.fits depth) .done

theorem Function.fits (depth : Nat) (func : Function) : Fits (depth + 3) func.toJson := by
  refine .of_append_nil ?_
  simp only [List.append_assoc, List.cons_append, List.nil_append]
  exact .always (.string _) <| .always (.string _) <| .always (.string _) <| .option .string <|
    .option (SourcePosition.fits (depth + 1)) <| .list (Example.fits depth) .done

theorem TypeDecl.fits (depth : Nat) (type : TypeDecl) : Fits (depth + 5) type.toJson := by
  refine .of_append_nil ?_
  simp only [List.append_assoc, List.cons_append, List.nil_append]
  exact .always (.string _) <| .always (.string _) <| .always (.string _) <|
    .option (SourcePosition.fits (depth + 3)) <| .list (Value.fits (depth + 1)) <|
    .list (Value.fits (depth + 1)) <| .list (Function.fits depth) <| .list (Function.fits depth) <|
    .list (Example.fits (depth + 2)) .done

theorem Package.fits (depth : Nat) (package : Package) : Fits (depth + 7) package.toJson := by
  refine .of_append_nil ?_
  simp only [List.append_assoc, List.cons_append, List.nil_append]
  exact .always (.string _) <| .always (.string _) <| .text <| .always (.string _) <|
    .option .string <| .always (.bool _) <| .list (Value.fits (depth + 3)) <|
    .list (Value.fits (depth + 3)) <| .list (Function.fits (depth + 2)) <|
    .list (TypeDecl.fits depth) <| .list (Example.fits (depth + 4)) <| .list .string .done

theorem SubPackage.fits (depth : Nat) (sub : SubPackage) : Fits (depth + 8) sub.toJson :=
  .of_members <| .always (.string _) <| .always (Package.fits depth _) .done

theorem Badges.fits (depth : Nat) (badges : Badges) : Fits (depth + 1) badges.toJson :=
  .of_members <| .always (.bool _) <| .always (.bool _) <| .always (.bool _) <| .always (.bool _) <|
    .always (.bool _) .done

theorem Settings.fits (depth : Nat) (settings : Settings) : Fits (depth + 2) settings.toJson :=
  .of_members <| .always (.string _) <| .always (.string _) <| .always (.bool _) <|
    .always (.bool _) <| .always (.bool _) <| .always (.bool _) <| .always (.bool _) <|
    .always (.bool _) <| .always (.bool _) <| .always (.bool _) <| .always (.bool _) <|
    .always (.bool _) <| .always (Badges.fits depth _) <| .always (.bool _) .done

theorem Contents.fits (depth : Nat) (contents : Contents) : Fits (depth + 10) contents.toJson :=
  .of_members <| .always (Package.fits (depth + 2) _) <|
    .always (.list (SubPackage.fits depth) _) <| .always (Settings.fits (depth + 7) _) .done

theorem Contents.fits_dump (depth : Nat) (time : String) (contents : Contents) :
    Fits (depth + 11) (contents.dump time) :=
  .of_members <| .always (.string _) <| .always (.string _) <|
    .always (Contents.fits depth contents) <|
    .always (.list .string _) .done

/-! ### Packages below another -/

namespace SubPackage

theorem take (sub : SubPackage) : ofJson sub.toJson = .ok sub := by
  have hwrites : Writes Draft.shape.fields
      [("path", .string sub.path), ("package", sub.package.toJson)]
      Draft.shape.initial ⟨some sub.path, some sub.package⟩ :=
    .always codes_string <| .always Package.codes <| .done _
  have htake := hwrites.take_record (by decide) (by simp [Draft.shape, Field.apart_of])
  rw [ofJson, toJson, htake]

end SubPackage

/-! ### Dumps -/

/-- **A dump keeps the contents.** Its text is read as an object whose member for the README is what
the text of the contents alone is read as. Package, packages below it and settings are taken back
from there. The failures are not there, but stand beside it, each in its words and in order. -/
theorem dump_keeps_contents (time : String) (contents : Contents) :
    ∃ members data, Json.parse (contents.dump time).pretty = .ok (.object members) ∧
      Json.parse contents.toJson.pretty = .ok (.object data) ∧
      (members.map Prod.fst).Nodup ∧ (data.map Prod.fst).Nodup ∧
      Keyed.get? "readme" members = some (.object data) ∧
      (∃ json, Keyed.get? "package" data = some json ∧
        Package.decoder.ofJson json = .ok contents.package) ∧
      (∃ items, Keyed.get? "sub_packages" data = some (.array items) ∧
        items.mapM SubPackage.ofJson = .ok contents.subPackages) ∧
      (∃ json, Keyed.get? "config" data = some json ∧
        Settings.decoder.ofJson json = .ok contents.settings) ∧
      Keyed.get? "fetch_errors" data = none ∧
      Keyed.get? "fetch_errors" members =
        some (.strings (contents.failures.map FetchFailure.text)) := by
  have hdump : Fits depthLimit (contents.dump time) := Contents.fits_dump 116 time contents
  have hdata : Fits depthLimit contents.toJson := Contents.fits 117 contents
  refine ⟨_, _, hdump.parse_pretty, hdata.parse_pretty, ?_, ?_, ?_, ?_, ?_, ?_, ?_, ?_⟩
  · show ["version", "generated_at", "readme", "fetch_errors"].Nodup
    decide
  · show ["package", "sub_packages", "config"].Nodup
    decide
  · rfl
  · exact ⟨_, rfl, Package.codes.takes contents.package⟩
  · exact ⟨_, rfl, mapM_eq_ok_of_forall fun sub _ => sub.take⟩
  · exact ⟨_, rfl, Settings.codes.takes contents.settings⟩
  · rfl
  · rfl

end PackageReadme
