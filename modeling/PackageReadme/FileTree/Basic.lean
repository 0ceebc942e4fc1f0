import PackageReadme.Failure
import PackageReadme.FileTree.Path

/-! Trees of files with a working directory, and the operations on them: reading a file, writing
one, and moving one over another. -/
namespace PackageReadme

inductive Entry where
  | file (bytes : List UInt8)
  | directory
  deriving DecidableEq, Repr

/-- Entries by the names on the way to them from the root. The way to the working directory is
always there. -/
structure FileTree where
  directory : List String := []
  entries : List (List String × Entry) := []
  deriving DecidableEq, Repr

namespace FileTree

def get? (tree : FileTree) (way : List String) : Option Entry :=
  if way.isPrefixOf tree.directory then some .directory else tree.entries.lookup way

/-- Puts an entry in place. -/
def put (tree : FileTree) (way : List String) (entry : Entry) : FileTree :=
  { tree with entries := replace tree.entries }
where
  replace : List (List String × Entry) → List (List String × Entry)
    | [] => [(way, entry)]
    | (other, old) :: rest =>
      if other = way then (way, entry) :: rest else (other, old) :: replace rest

def erase (tree : FileTree) (way : List String) : FileTree :=
  { tree with entries := tree.entries.filter fun (other, _) => other != way }

/-! ### Finding -/

/-- How many bytes a name may have. -/
def nameLimit : Nat := 255

/-- How many bytes a path may have. -/
def pathLimit : Nat := 4095

/-- Refuses paths that lead nowhere whatever is there. -/
def checkPath (path : String) : Except SystemFault Unit :=
  if path.toList.contains '\x00' then .error .holdsNul
  else if pathLimit < path.utf8ByteSize then .error .tooLong
  else .ok ()

/-- The way that names lead from a directory on. Above the root is the root. -/
def walk (tree : FileTree) (way : List String) : List String → Except SystemFault (List String)
  | [] => .ok way
  | name :: rest =>
    match tree.get? way with
    | none => .error .notFound
    | some (.file _) => .error .notDirectory
    | some .directory =>
      if name = "." then walk tree way rest
      else if name = ".." then walk tree way.dropLast rest
      else if nameLimit < name.utf8ByteSize then .error .tooLong
      else walk tree (way ++ [name]) rest

/-- Where a path starts. -/
def start (tree : FileTree) (path : String) : List String :=
  if Path.isAbsolute path then [] else tree.directory

/-- What is at a path. -/
def find (tree : FileTree) (path : String) : Except SystemFault Entry :=
  match checkPath path, tree.walk (tree.start path) (Path.segments path) with
  | .error fault, _ => .error fault
  | _, .error fault => .error fault
  | .ok (), .ok way =>
    match tree.get? way with
    | none => .error .notFound
    | some .directory => .ok .directory
    | some (.file bytes) =>
      if Path.namesDirectory path then .error .notDirectory else .ok (.file bytes)

def isFile (tree : FileTree) (path : String) : Bool :=
  match tree.find path with
  | .ok (.file _) => true
  | _ => false

/-! ### Reading and writing -/

/-- The bytes of a file. -/
def read (tree : FileTree) (path : String) : Except SystemFault (List UInt8) :=
  match tree.find path with
  | .error fault => .error fault
  | .ok .directory => .error .isDirectory
  | .ok (.file bytes) => .ok bytes

/-- The text of a file. -/
def readText (tree : FileTree) (path : String) : Except SystemFault String :=
  match tree.read path with
  | .error fault => .error fault
  | .ok bytes =>
    match String.fromUTF8? ⟨bytes.toArray⟩ with
    | some text => .ok text
    | none => .error .notText

/-- The way to the last name of a path, below a directory that is there. -/
def place (tree : FileTree) (path : String) : Except SystemFault (List String) :=
  let segments := Path.segments path
  match checkPath path, tree.walk (tree.start path) segments.dropLast with
  | .error fault, _ => .error fault
  | _, .error fault => .error fault
  | .ok (), .ok way =>
    match tree.get? way, segments.getLast? with
    | some .directory, some name =>
      if name = "." || name = ".." then .error .busy
      else if nameLimit < name.utf8ByteSize then .error .tooLong
      else .ok (way ++ [name])
    | some .directory, none => .error .isDirectory
    | some (.file _), _ => .error .notDirectory
    | none, _ => .error .notFound

/-- Writes a file, in place of one that is there. -/
def write (tree : FileTree) (path : String) (bytes : List UInt8) : Except SystemFault FileTree :=
  match tree.place path with
  | .error fault => .error fault
  | .ok way =>
    if tree.get? way = some .directory || Path.namesDirectory path then .error .isDirectory
    else .ok (tree.put way (.file bytes))

/-- Removes a file that is there. -/
def remove (tree : FileTree) (path : String) : FileTree :=
  match tree.place path with
  | .error _ => tree
  | .ok way => tree.erase way

/-- Moves a file to a path, in place of a file that is there but not of a directory. -/
def rename (tree : FileTree) (source target : String) : Except SystemFault FileTree :=
  match tree.place source, tree.place target with
  | .error fault, _ => .error fault
  | _, .error fault => .error fault
  | .ok way, .ok goal =>
    match tree.get? way with
    | some (.file bytes) =>
      if Path.namesDirectory target then .error .notDirectory
      else if tree.get? goal = some .directory then .error .isDirectory
      else .ok ((tree.erase way).put goal (.file bytes))
    | some .directory => .error .isDirectory
    | none => .error .notFound

end FileTree
end PackageReadme
