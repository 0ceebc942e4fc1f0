import PackageReadme.Text.Ranges
import PackageReadme.Text.Start

/-! Blank characters, and the two things done with them: trimming the ends of a text and cutting it
into words. Blank is the property White_Space, so no-break and ideographic spaces count. -/
namespace PackageReadme.Text

/-- The code points of the property White_Space. -/
def blankRanges : List (Nat × Nat) :=
  [(9, 13), (32, 32), (133, 133), (160, 160), (5760, 5760), (8192, 8202), (8232, 8233),
   (8239, 8239), (8287, 8287), (12288, 12288)]

def isBlank (c : Char) : Bool :=
  inRanges c.toNat blankRanges

/-! ### Trimming -/

def trimStart (s : List Char) : List Char :=
  s.dropWhile isBlank

/-- `s` without the longest tail of characters that satisfy `p`. -/
def dropTail (p : Char → Bool) : List Char → List Char
  | [] => []
  | c :: cs =>
    match dropTail p cs with
    | [] => if p c then [] else [c]
    | kept => c :: kept

def trimEnd (s : List Char) : List Char :=
  dropTail isBlank s

def trim (s : List Char) : List Char :=
  trimEnd (trimStart s)

/-! ### Words -/

/-- The maximal runs of characters that are not blank. -/
def words (s : List Char) : List (List Char) :=
  (cutWhere isBlank s).filter fun word => !word.isEmpty

end PackageReadme.Text
