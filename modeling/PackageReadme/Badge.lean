import PackageReadme.Settings.Basic
import PackageReadme.Text.Start

/-! Badges: images that link to the pages of services about a package. -/
namespace PackageReadme

structure Badge where
  alt : String
  image : String
  link : String
  deriving DecidableEq, Repr

namespace Badge

/-- The path of a project on the services that know projects by owner and name. -/
def projectPath (importPath : String) : String :=
  match Text.after? "github.com/".toList importPath.toList with
  | some rest => String.ofList rest
  | none => importPath

def travisCi (project : String) : Badge where
  alt := "Build Status"
  image := s!"https://travis-ci.org/{project}.svg?branch=master"
  link := s!"https://travis-ci.org/{project}"

def codeCov (project : String) : Badge where
  alt := "codecov"
  image := s!"https://codecov.io/gh/{project}/branch/master/graph/badge.svg"
  link := s!"https://codecov.io/gh/{project}"

def golangCi (importPath : String) : Badge where
  alt := "golangci"
  image := s!"https://golangci.com/badges/{importPath}.svg"
  link := s!"https://golangci.com/r/{importPath}"

def goDoc (importPath : String) : Badge where
  alt := "GoDoc"
  image := "https://img.shields.io/badge/pkg.go.dev-doc-blue"
  link := s!"http://pkg.go.dev/{importPath}"

def goReportCard (importPath : String) : Badge where
  alt := "Go Report Card"
  image := s!"https://goreportcard.com/badge/{importPath}"
  link := s!"https://goreportcard.com/report/{importPath}"

end Badge

/-- The badges that are on, in the order in which they are shown. -/
def Badges.shown (badges : Badges) (importPath : String) : List Badge :=
  let project := Badge.projectPath importPath
  (if badges.travisCi then [Badge.travisCi project] else []) ++
    (if badges.codeCov then [Badge.codeCov project] else []) ++
    (if badges.golangCi then [Badge.golangCi importPath] else []) ++
    (if badges.goDoc then [Badge.goDoc importPath] else []) ++
    (if badges.goReportCard then [Badge.goReportCard importPath] else [])

end PackageReadme
