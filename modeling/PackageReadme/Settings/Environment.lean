import PackageReadme.Settings.Layer
import PackageReadme.Text.Blank
import PackageReadme.Text.Bytes
import PackageReadme.Text.Digits
import PackageReadme.Text.Start

/-! Settings from the environment.

A variable counts if its name starts with `READMEGEN_`, in upper or lower case. The rest of the name
is the way to the setting: two underscores or a point lead into a table. The value is read as true
or false, a number, a character or a text in quotes, a list in brackets or a table in braces; if it
is none of these, it is the text that it is, with the blanks around it. -/
namespace PackageReadme.Environment
open Text

/-! ### Names -/

def start : String := "READMEGEN_"

/-- Two underscores as a point, from the left. -/
def pointed : List Char → List Char
  | '_' :: '_' :: rest => '.' :: pointed rest
  | c :: rest => c :: pointed rest
  | [] => []

/-- What follows `start` at the front of a name, in upper or lower case. -/
def afterStart? : (start name : List Char) → Option (List Char)
  | [], name => some name
  | a :: as, b :: bs => if a.toLower = b.toLower then afterStart? as bs else none
  | _ :: _, [] => none

/-- The way to the setting that a variable sets, if its name is one of a setting. -/
def path? (name : String) : Option (List String) :=
  match afterStart? start.toList (trim name.toList) with
  | none => none
  | some rest =>
    let parts := cut '.' (trim (pointed rest))
    if parts.any List.isEmpty then none
    else some (parts.map fun part => String.ofList (part.map Char.toLower))

/-! ### Numbers -/

/-- An integer of 64 bits; the positive ones reach further than the negative ones. -/
def integer? : List Char → Option Number
  | '-' :: rest =>
    (decimal? rest).bind fun n => if n ≤ Nat.pow 2 63 then some (.negative n) else none
  | rest => (positive? rest).bind fun n => if n < Nat.pow 2 64 then some (.natural n) else none

/-- An exponent with its mark, if there is one. -/
def exponent? : List Char → Option Int
  | [] => some 0
  | mark :: rest =>
    if mark = 'e' || mark = 'E' then
      match rest with
      | '-' :: rest => (decimal? rest).map fun n => -(n : Int)
      | rest => (positive? rest).map Int.ofNat
    else none

/-- `significand · 10 ^ exponent` as a binary64 number, which is infinite if it is too large. -/
def scale (significand : Nat) (exponent : Int) : Float :=
  let leading := exponent + (Nat.toDigits 10 significand).length
  if significand = 0 || leading < -400 then 0
  else if 400 < leading then 1 / 0
  else if exponent < 0 then Float.ofScientific significand true exponent.natAbs
  else Float.ofScientific (significand * Nat.pow 10 exponent.toNat) false 0

/-- A number with a point, without its sign. -/
def unsignedFraction? (s : List Char) : Option Float :=
  let whole := s.takeWhile Char.isDigit
  match s.drop whole.length with
  | '.' :: rest =>
    let fraction := rest.takeWhile Char.isDigit
    match decimal? (whole ++ fraction), exponent? (rest.drop fraction.length) with
    | some significand, some exponent => some (scale significand (exponent - fraction.length))
    | _, _ => none
  | _ => none

/-- A number with a point. -/
def fraction? : List Char → Option Number
  | '-' :: rest => (unsignedFraction? rest).map fun value => .binary64 (-value).toBits
  | '+' :: rest => (unsignedFraction? rest).map fun value => .binary64 value.toBits
  | rest => (unsignedFraction? rest).map fun value => .binary64 value.toBits

/-- A number or else a text, without blanks around it. -/
def bare (s : List Char) : Scalar :=
  let s := trim s
  match if s.contains '.' then fraction? s else none with
  | some n => .number n
  | none =>
    match integer? s with
    | some n => .number n
    | none => .text (String.ofList s)

/-! ### Reading -/

/-- Why a value could not be read: it is not of the form that is read, or reading it broke down. -/
inductive Misread where
  | otherForm
  | broken (slice : BrokenSlice)
  deriving DecidableEq, Repr

/-- What a reader gives: a value and the rest of the text, or why there is none. -/
abbrev Reading (α : Type) := Except Misread (α × List Char)

/-- What was found, if it is of the form that is read. -/
def found {α : Type} : Option α → Except Misread α
  | some value => .ok value
  | none => .error .otherForm

/-! ### Texts in quotes -/

/-- The text up to a quote that no backslash stands before, and the rest after the quote. -/
def quotedPart? : List Char → Option (List Char × List Char)
  | [] => none
  | '"' :: rest => some ([], rest)
  | '\\' :: c :: rest => (quotedPart? rest).map fun (part, rest) => ('\\' :: c :: part, rest)
  | '\\' :: [] => none
  | c :: rest => (quotedPart? rest).map fun (part, rest) => (c :: part, rest)

/-- The character of a hexadecimal code point. -/
def escapedChar? (digits : List Char) : Option Char :=
  (hexadecimal? digits).bind codePoint?

def escape? (c : Char) : Option Char :=
  [('"', '"'), ('\\', '\\'), ('b', '\x08'), ('f', '\x0c'), ('n', '\n'), ('r', '\r'),
   ('t', '\t')].lookup c

/-- The control characters that may not stand in a text: all but tabs. -/
def isControl (c : Char) : Bool :=
  (c.toNat < 32 && c != '\t') || c.toNat = 127

/-- A text with its escapes resolved. -/
def resolve? : List Char → Option (List Char)
  | [] => some []
  | '\\' :: 'u' :: a :: b :: c :: d :: rest =>
    (escapedChar? [a, b, c, d]).bind fun char => (resolve? rest).map (char :: ·)
  | '\\' :: 'U' :: a :: b :: c :: d :: e :: f :: g :: h :: rest =>
    (escapedChar? [a, b, c, d, e, f, g, h]).bind fun char => (resolve? rest).map (char :: ·)
  | '\\' :: c :: rest => (escape? c).bind fun char => (resolve? rest).map (char :: ·)
  | c :: rest =>
    if c = '\\' || isControl c then none else (resolve? rest).map (c :: ·)

/-- The text that stands in quotes. Of what stands before its first escape, as many bytes are kept
as there are characters, so that only ASCII is kept whole. -/
def unescape (s : List Char) : Except Misread (List Char) :=
  let plain := s.takeWhile (· != '\\')
  if plain.any isControl then .error .otherForm
  else
    match s.drop plain.length with
    | [] => .ok plain
    | escaped =>
      match slice 0 plain.length s with
      | .error broken => .error (.broken broken)
      | .ok kept => (found (resolve? escaped)).map (kept ++ ·)

/-- A text in quotes after its first quote, and the rest. -/
def readText (s : List Char) : Reading String :=
  match quotedPart? s with
  | none => .error .otherForm
  | some (part, rest) => (unescape part).map fun text => (String.ofList text, rest)

/-! ### Values -/

/-- The blanks between the parts of a value. -/
def isGap (c : Char) : Bool :=
  c = ' ' || c = '\t' || c = '\n' || c = '\x0c' || c = '\r'

def skipGap (s : List Char) : List Char :=
  s.dropWhile isGap

/-- A character that a bare value may hold. -/
def isBare (c : Char) : Bool :=
  !(c = ',' || c = '\x7b' || c = '\x7d' || c = '[' || c = ']')

/-- A letter of a name in a table. -/
def isNameLetter (c : Char) : Bool :=
  c.isAlphanum || c = '_' || c = '-'

/-- A name in a table and the rest after it. -/
def readName (s : List Char) : Reading String :=
  match s with
  | '"' :: rest => readText rest
  | s =>
    let name := s.takeWhile isNameLetter
    if name.isEmpty then .error .otherForm else .ok (String.ofList name, s.drop name.length)

/-- A name in a table and the rest after the equals sign. -/
def readNamed (s : List Char) : Reading String :=
  match readName (skipGap s) with
  | .error misread => .error misread
  | .ok (name, rest) =>
    match skipGap rest with
    | '=' :: rest => .ok (name, rest)
    | _ => .error .otherForm

/-- A value that has no parts, from its first character on, and the rest. -/
def readScalar (s : List Char) : Reading Scalar :=
  match after? "true".toList s, after? "false".toList s, s with
  | some rest, _, _ => .ok (.bool true, rest)
  | _, some rest, _ => .ok (.bool false, rest)
  | _, _, '"' :: rest => (readText rest).map fun (text, rest) => (.text text, rest)
  | _, _, '\'' :: c :: '\'' :: rest => .ok (.text (String.ofList [c]), rest)
  | _, _, '\'' :: _ => .error .otherForm
  | _, _, s =>
    let part := s.takeWhile isBare
    .ok (bare part, s.drop part.length)

/-- A way to read a value from the front of a text. -/
abbrev ValueReader := List Char → Reading Setting

/-- The items of a list up to its end, and the rest after it. A comma may stand after the last
item. -/
def readItems (read : ValueReader) (s : List Char) : Reading (List Setting) :=
  match s with
  | ']' :: rest => .ok ([], rest)
  | s =>
    match read s with
    | .error misread => .error misread
    | .ok (item, ',' :: rest) =>
      if rest.length < s.length then
        (readItems read rest).map fun (items, rest) => (item :: items, rest)
      else .error .otherForm
    | .ok (item, ']' :: rest) => .ok ([item], rest)
    | .ok _ => .error .otherForm
termination_by s.length

/-- The members of a table up to its end, put among those before, and the rest after it. -/
def readMembers (read : ValueReader) (before : Keyed Setting) (s : List Char) :
    Reading (Keyed Setting) :=
  match s with
  | '\x7d' :: rest => .ok (before, rest)
  | s =>
    match readNamed s with
    | .error misread => .error misread
    | .ok (name, value) =>
      match read value with
      | .error misread => .error misread
      | .ok (item, ',' :: rest) =>
        if rest.length < s.length then readMembers read (Keyed.insert name item before) rest
        else .error .otherForm
      | .ok (item, '\x7d' :: rest) => .ok (Keyed.insert name item before, rest)
      | .ok _ => .error .otherForm
termination_by s.length

/-- A value with at most so many lists and tables in one another, and the rest. -/
def readValue : (depth : Nat) → ValueReader
  | 0, s =>
    (readScalar (skipGap s)).map fun (scalar, rest) => (.scalar .environment scalar, skipGap rest)
  | depth + 1, s =>
    match skipGap s with
    | '[' :: rest =>
      (readItems (readValue depth) rest).map fun (items, rest) =>
        (.list .environment items, skipGap rest)
    | '\x7b' :: rest =>
      (readMembers (readValue depth) [] rest).map fun (members, rest) =>
        (.table .environment members, skipGap rest)
    | s => (readScalar s).map fun (scalar, rest) => (.scalar .environment scalar, skipGap rest)

/-- The value of a variable. -/
def value (text : String) : Except BrokenSlice Setting :=
  match readValue text.length text.toList with
  | .ok (setting, []) => .ok setting
  | .ok _ | .error .otherForm => .ok (.scalar .environment (.text text))
  | .error (.broken slice) => .error slice

/-! ### Layers -/

/-- A value at the end of a way through tables. -/
def nest (setting : Setting) : List String → Setting
  | [] => setting
  | name :: rest => .table .environment [(name, nest setting rest)]

/-- The layer of an environment, over the layer of the variables before. -/
def layerOver (before : Setting) : List (String × String) → Except BrokenSlice Setting
  | [] => .ok before
  | (name, text) :: rest =>
    match path? name with
    | none => layerOver before rest
    | some path =>
      match value text with
      | .ok setting => layerOver ((nest setting path).laidOver before) rest
      | .error broken => .error broken

/-- The layer of an environment. -/
def layer (environment : List (String × String)) : Except BrokenSlice Setting :=
  layerOver (.table .environment []) environment

end PackageReadme.Environment
