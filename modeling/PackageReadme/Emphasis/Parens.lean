import PackageReadme.Text.Bytes

/-! Paired parentheses.

A text is paired if no prefix of it closes a parenthesis that was not opened and every opened
parenthesis is closed. `pairedStart` is the longest paired prefix, and `pairedLength` finds in one
pass how many bytes it takes. -/
namespace PackageReadme.Emphasis
open Text

/-- The longest prefix that closes exactly the `depth` open parentheses and those that it opens, if
there is one. -/
def closing? (depth : Nat) : List Char → Option (List Char)
  | [] => if depth = 0 then some [] else none
  | c :: cs =>
    let longer :=
      if c = '(' then closing? (depth + 1) cs
      else if c = ')' then if depth = 0 then none else closing? (depth - 1) cs
      else closing? depth cs
    match longer with
    | some start => some (c :: start)
    | none => if depth = 0 then some [] else none

/-- The longest prefix in which the parentheses are paired. -/
def pairedStart (s : List Char) : List Char :=
  (closing? 0 s).getD []

/-! ### One pass -/

/-- The length of the longest paired start of a text of `total` bytes, after the part of it that
ends at byte `place`. So far `parens` parentheses are open, and the length is `len` if nothing
changes that. -/
def pairedLengthFrom (total : Nat) (parens : Int32) (len place : Nat) : List Char → Nat
  | [] => len
  | c :: cs =>
    if c = '(' then
      pairedLengthFrom total (parens + 1) (if parens = 0 then place else len)
        (place + c.utf8Size) cs
    else if c = ')' then
      if parens - 1 = 0 then pairedLengthFrom total (parens - 1) total (place + c.utf8Size) cs
      else if parens - 1 < 0 then place
      else pairedLengthFrom total (parens - 1) len (place + c.utf8Size) cs
    else pairedLengthFrom total parens len (place + c.utf8Size) cs

/-- How many bytes the longest paired start of a text takes. -/
def pairedLength (s : List Char) : Nat :=
  pairedLengthFrom (byteSize s) 0 (byteSize s) 0 s

end PackageReadme.Emphasis
