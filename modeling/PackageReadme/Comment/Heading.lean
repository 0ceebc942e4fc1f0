import PackageReadme.Text.Blank
import PackageReadme.Text.Letter

/-! Which lines of a comment pass as a section heading.

A heading starts with an upper-case letter, ends in a letter or a digit and holds no character that
belongs to code or to a sentence. An apostrophe is only possessive, and a period only inside a
name. -/
namespace PackageReadme.Comment
open Text

/-- Characters that no heading holds. Parentheses and commas are allowed. -/
def unfitForHeading : List Char :=
  [';', ':', '!', '?', '+', '*', '/', '=', '[', ']', '\x7b', '\x7d', '_', '^', '°', '&', '§', '~',
   '%', '#', '@', '<', '"', '>', '\\']

/-- Starts with an upper-case letter and ends in a letter or a decimal digit. -/
def hasHeadingEdges (s : List Char) : Bool :=
  (s.head?.any isUpperLetter) && (s.getLast?.any fun c => isLetter c || isDecimalDigit c)

/-- Every apostrophe is followed by `s`, and that by a space or by the end. -/
def apostrophesFit : List Char → Bool
  | [] => true
  | '\'' :: rest =>
    match rest with
    | 's' :: after => (after.head?.all (· == ' ')) && apostrophesFit after
    | _ => false
  | _ :: rest => apostrophesFit rest

/-- Every period is followed by a character other than a space. -/
def periodsFit : List Char → Bool
  | [] => true
  | '.' :: rest => (rest.head?.any (· != ' ')) && periodsFit rest
  | _ :: rest => periodsFit rest

/-- The trimmed line, if it passes as a heading. -/
def heading? (line : List Char) : Option (List Char) :=
  let title := trim line
  if hasHeadingEdges title && !title.any unfitForHeading.contains && apostrophesFit title &&
      periodsFit title then
    some title
  else none

end PackageReadme.Comment
