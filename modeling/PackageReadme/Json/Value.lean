/-! JSON values.

An object keeps its members in the order in which they stand, repeated names included. A number is
an integer if it fits into 64 bits, and else the binary64 number that it was read as. -/
namespace PackageReadme

inductive Number where
  | natural (n : Nat)
  /-- The integer `-n`. -/
  | negative (n : Nat)
  | binary64 (bits : UInt64)
  deriving DecidableEq, Repr

inductive Json where
  | null
  | bool (b : Bool)
  | number (n : Number)
  | string (s : String)
  | array (items : List Json)
  | object (members : List (String × Json))
  deriving Repr, Inhabited

namespace Json

def nat (n : Nat) : Json :=
  .number (.natural n)

/-- The whole number that a value is, if it is one. -/
def natural? : Json → Option Nat
  | .number (.natural n) => some n
  | _ => none

/-- A list of texts. -/
def strings (items : List String) : Json :=
  .array (items.map .string)

/-! ### Members that may be left out -/

/-- A text member, left out if the text is empty. -/
def textMember (name : String) (s : String) : List (String × Json) :=
  if s = "" then [] else [(name, .string s)]

/-- A member for a value that may be absent, left out if it is. -/
def optionMember {α : Type} (name : String) (toJson : α → Json) : Option α → List (String × Json)
  | none => []
  | some value => [(name, toJson value)]

/-- A list member, left out if the list is empty. -/
def listMember {α : Type} (name : String) (toJson : α → Json) : List α → List (String × Json)
  | [] => []
  | item :: rest => [(name, .array ((item :: rest).map toJson))]

end Json
end PackageReadme
