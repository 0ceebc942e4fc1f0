import PackageReadme.Json.Printer
import PackageReadme.Json.Record
import PackageReadme.Settings.Basic

/-! Settings as JSON. Every field may be missing and none may be unknown; when written, all are
there. -/
namespace PackageReadme
open Json

namespace Badges

def toJson (badges : Badges) : Json :=
  .object
    [("travis_ci", .bool badges.travisCi), ("code_cov", .bool badges.codeCov),
     ("golang_ci", .bool badges.golangCi), ("go_doc", .bool badges.goDoc),
     ("go_report_card", .bool badges.goReportCard)]

def shape : Shape Badges where
  title := "struct Badges"
  initial := {}
  fields :=
    [.of "travis_ci" .bool fun travisCi badges => { badges with travisCi },
     .of "code_cov" .bool fun codeCov badges => { badges with codeCov },
     .of "golang_ci" .bool fun golangCi badges => { badges with golangCi },
     .of "go_doc" .bool fun goDoc badges => { badges with goDoc },
     .of "go_report_card" .bool fun goReportCard badges => { badges with goReportCard }]
  strict := true

def decoder : Decoder Badges :=
  .record shape

end Badges

namespace Settings

def toJson (settings : Settings) : Json :=
  .object
    [("title", .string settings.title), ("import_path", .string settings.importPath),
     ("consts", .bool settings.consts), ("vars", .bool settings.vars),
     ("functions", .bool settings.functions), ("types", .bool settings.types),
     ("factories", .bool settings.factories), ("methods", .bool settings.methods),
     ("skip_examples", .bool settings.skipExamples),
     ("skip_sub_packages", .bool settings.skipSubPackages),
     ("no_diff_blocks", .bool settings.noDiffBlocks),
     ("recursive_sub_packages", .bool settings.recursive), ("badges", settings.badges.toJson),
     ("credit", .bool settings.credit)]

def shape : Shape Settings where
  title := "struct RenderConfig"
  initial := {}
  fields :=
    [.of "title" .string fun title settings => { settings with title },
     .of "import_path" .string fun importPath settings => { settings with importPath },
     .of "consts" .bool fun consts settings => { settings with consts },
     .of "vars" .bool fun vars settings => { settings with vars },
     .of "functions" .bool fun functions settings => { settings with functions },
     .of "types" .bool fun types settings => { settings with types },
     .of "factories" .bool fun factories settings => { settings with factories },
     .of "methods" .bool fun methods settings => { settings with methods },
     .of "skip_examples" .bool fun skipExamples settings => { settings with skipExamples },
     .of "skip_sub_packages" .bool fun skipSubPackages settings =>
       { settings with skipSubPackages },
     .of "no_diff_blocks" .bool fun noDiffBlocks settings => { settings with noDiffBlocks },
     .of "recursive_sub_packages" .bool fun recursive settings => { settings with recursive },
     .of "badges" Badges.decoder fun badges settings => { settings with badges },
     .of "credit" .bool fun credit settings => { settings with credit }]
  strict := true

def decoder : Decoder Settings :=
  .record shape

/-- The settings that a JSON text holds. -/
def parse (text : String) : Except Rejection Settings :=
  decoder.parse text

end Settings
end PackageReadme
