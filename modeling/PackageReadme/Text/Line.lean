import PackageReadme.Text.Start

/-! Lines and their indentation.

A text is cut after every newline, so each line keeps the newline that ends it and the lines put
together give the text back. -/
namespace PackageReadme.Text

/-- A line with the newline that ends it, if one does. -/
abbrev Line := List Char

/-- The lines of a text. -/
def lines : List Char → List Line
  | [] => []
  | c :: cs =>
    if c = '\n' then [c] :: lines cs
    else
      match lines cs with
      | [] => [[c]]
      | line :: rest => (c :: line) :: rest

namespace Line

/-- A line that holds nothing, or nothing but its newline. -/
def isVoid (line : Line) : Bool :=
  line == [] || line == ['\n']

/-- The spaces and tabs that a line starts with. -/
def indent (line : Line) : List Char :=
  line.takeWhile fun c => c == ' ' || c == '\t'

def isIndented (line : Line) : Bool :=
  line.indent != []

/-- The line, ended by a newline whether or not it was before. -/
def terminated (line : Line) : Line :=
  if line.getLast? = some '\n' then line else line ++ ['\n']

end Line

/-! ### Shared indentation -/

/-- The longest indentation that all lines share which are not void. -/
def sharedIndent (ls : List Line) : List Char :=
  match ls.filter fun line => !line.isVoid with
  | [] => []
  | first :: rest => rest.foldl (fun shared line => commonStart shared line.indent) first.indent

/-- The lines without the indentation that they share. -/
def unindent (ls : List Line) : List Line :=
  let width := (sharedIndent ls).length
  ls.map fun line => if line.isVoid then line else line.drop width

end PackageReadme.Text
