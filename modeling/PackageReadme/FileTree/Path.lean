import PackageReadme.Text.Start

/-! Paths of files as texts: the names between slashes, where single points stand for nothing. -/
namespace PackageReadme.Path
open Text

/-- The names on a path, with single and double points. -/
def segments (path : String) : List String :=
  ((cut '/' path.toList).filter fun part => !part.isEmpty).map String.ofList

def isAbsolute (path : String) : Bool :=
  path.toList.head? = some '/'

/-- Whether a path names a directory whatever is there: it ends in a slash, or in points. -/
def namesDirectory (path : String) : Bool :=
  path.toList.getLast? = some '/' ||
    match (segments path).getLast? with
    | some name => name = "." || name = ".."
    | none => true

/-- The names on a path that stand for something. -/
def names (path : String) : List String :=
  (segments path).filter (· != ".")

/-- The way from one directory to what lies at the end of another way: up, and down again. -/
def between : (base way : List String) → List String
  | a :: as, b :: bs => if a = b then between as bs else (a :: as).map (fun _ => "..") ++ b :: bs
  | base, way => base.map (fun _ => "..") ++ way

/-- A path as it is shown from the working directory. An absolute path stays as it is if it has no
more names than the way to it. -/
def shown (directory : List String) (path : String) : String :=
  if isAbsolute path then
    let way := between directory (names path)
    if way.length < (names path).length + 1 then "/".intercalate way else path
  else "/".intercalate (names path)

/-- The name of the file at the end of a path, if one is there. -/
def fileName? (path : String) : Option String :=
  match (names path).getLast? with
  | some name => if name = ".." then none else some name
  | none => none

/-! ### Siblings -/

/-- A path in reverse without slashes and single points at its end. -/
def dropEnd : List Char → List Char
  | '/' :: [] => ['/']
  | '/' :: rest => dropEnd rest
  | '.' :: '/' :: rest => dropEnd ('/' :: rest)
  | reversed => reversed
termination_by reversed => reversed.length

/-- The part of a path before its file name. -/
def parent (path : String) : List Char :=
  let reversed := dropEnd path.toList.reverse
  (dropEnd (reversed.dropWhile (· != '/'))).reverse

/-- A path with another file name at its end. -/
def withFileName (path name : String) : String :=
  let parent := parent path
  let separator := if parent.isEmpty || parent.getLast? = some '/' then [] else ['/']
  String.ofList (parent ++ separator ++ name.toList)

end PackageReadme.Path
