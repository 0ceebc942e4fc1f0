/-! Declarations in short form: what stands between the outermost braces is left out. -/
namespace PackageReadme.Declaration

/-- What stands for a body that is left out. -/
def collapsed : List Char :=
  "\x7b ... \x7d".toList

/-- What follows the last occurrence of a character, if it occurs. -/
def afterLast? (mark : Char) : List Char → Option (List Char)
  | [] => none
  | c :: cs =>
    match afterLast? mark cs with
    | some rest => some rest
    | none => if c = mark then some cs else none

/-- A declaration with all from its first opening brace to its last closing brace left out, if the
closing brace comes later. -/
def collapseBody : List Char → List Char
  | [] => []
  | c :: cs =>
    if c = '\x7b' then
      match afterLast? '\x7d' cs with
      | some rest => collapsed ++ rest
      | none => c :: cs
    else c :: collapseBody cs

end PackageReadme.Declaration
