import PackageReadme.Decimal.Shortest
import PackageReadme.Json.Value
import PackageReadme.Text.Quoted

/-! JSON values as text, on one line or over several.

Strings escape quotes, backslashes and control characters only. Over several lines every item and
every member has a line of its own, two spaces deeper than its container; empty containers stay on
one line. -/
namespace PackageReadme.Json
open Text

/-! ### Scalars -/

def escapedChar (c : Char) : List Char :=
  if c = '"' then ['\\', '"']
  else if c = '\\' then ['\\', '\\']
  else if c = '\x08' then ['\\', 'b']
  else if c = '\t' then ['\\', 't']
  else if c = '\n' then ['\\', 'n']
  else if c = '\x0c' then ['\\', 'f']
  else if c = '\r' then ['\\', 'r']
  else if c.toNat < 32 then
    ['\\', 'u', '0', '0'] ++ (if c.toNat < 16 then ['0'] else []) ++ hexadecimal c.toNat
  else [c]

def stringText (s : String) : List Char :=
  ['"'] ++ s.toList.flatMap escapedChar ++ ['"']

def numberText : Number → List Char
  | .natural n => Nat.toDigits 10 n
  | .negative n => '-' :: Nat.toDigits 10 n
  | .binary64 bits => (Decimal.Style.inJson.text bits).toList

def boolText (b : Bool) : List Char :=
  if b then ['t', 'r', 'u', 'e'] else ['f', 'a', 'l', 's', 'e']

def nullText : List Char :=
  ['n', 'u', 'l', 'l']

/-! ### One line -/

mutual

/-- The text of a value without blanks. -/
def compactChars : Json → List Char
  | .null => nullText
  | .bool b => boolText b
  | .number n => numberText n
  | .string s => stringText s
  | .array items => ['['] ++ compactItems items ++ [']']
  | .object members => ['\x7b'] ++ compactMembers members ++ ['\x7d']

def compactItems : List Json → List Char
  | [] => []
  | [item] => compactChars item
  | item :: next :: rest => compactChars item ++ [','] ++ compactItems (next :: rest)

def compactMembers : List (String × Json) → List Char
  | [] => []
  | [(name, value)] => stringText name ++ [':'] ++ compactChars value
  | (name, value) :: next :: rest =>
    stringText name ++ [':'] ++ compactChars value ++ [','] ++ compactMembers (next :: rest)

end

def compact (json : Json) : String :=
  String.ofList (compactChars json)

/-! ### Several lines -/

/-- A new line at a depth. -/
def lineBreak (depth : Nat) : List Char :=
  '\n' :: List.replicate (2 * depth) ' '

mutual

/-- The text of a value that starts at a depth, over several lines. -/
def prettyChars (depth : Nat) : Json → List Char
  | .null => nullText
  | .bool b => boolText b
  | .number n => numberText n
  | .string s => stringText s
  | .array [] => ['[', ']']
  | .array (item :: rest) =>
    ['['] ++ prettyItems (depth + 1) (item :: rest) ++ lineBreak depth ++ [']']
  | .object [] => ['\x7b', '\x7d']
  | .object (member :: rest) =>
    ['\x7b'] ++ prettyMembers (depth + 1) (member :: rest) ++ lineBreak depth ++ ['\x7d']

def prettyItems (depth : Nat) : List Json → List Char
  | [] => []
  | [item] => lineBreak depth ++ prettyChars depth item
  | item :: next :: rest =>
    lineBreak depth ++ prettyChars depth item ++ [','] ++ prettyItems depth (next :: rest)

def prettyMembers (depth : Nat) : List (String × Json) → List Char
  | [] => []
  | [(name, value)] => lineBreak depth ++ stringText name ++ [':', ' '] ++ prettyChars depth value
  | (name, value) :: next :: rest =>
    lineBreak depth ++ stringText name ++ [':', ' '] ++ prettyChars depth value ++ [','] ++
      prettyMembers depth (next :: rest)

end

def pretty (json : Json) : String :=
  String.ofList (prettyChars 0 json)

end PackageReadme.Json
