/-! What texts start with, and cutting a text at certain characters. -/
namespace PackageReadme.Text

/-- What follows `start` at the front of a text, if the text starts with it. -/
def after? : (start text : List Char) → Option (List Char)
  | [], text => some text
  | a :: as, b :: bs => if a = b then after? as bs else none
  | _ :: _, [] => none

/-- The longest text that both texts start with. -/
def commonStart : List Char → List Char → List Char
  | a :: as, b :: bs => if a = b then a :: commonStart as bs else []
  | _, _ => []

/-- The parts of a text between the characters that satisfy `isMark`; there is one part more than
there are such characters. -/
def cutWhere (isMark : Char → Bool) : List Char → List (List Char)
  | [] => [[]]
  | c :: cs =>
    if isMark c then [] :: cutWhere isMark cs
    else
      match cutWhere isMark cs with
      | [] => [[c]]
      | part :: rest => (c :: part) :: rest

/-- The parts of a text between the occurrences of `mark`. -/
def cut (mark : Char) (s : List Char) : List (List Char) :=
  cutWhere (· == mark) s

end PackageReadme.Text
