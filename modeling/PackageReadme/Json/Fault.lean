import PackageReadme.Decimal.Shortest
import PackageReadme.Json.Value
import PackageReadme.Text.Quoted

/-! Why a JSON text or value was refused, where, and in which words. -/
namespace PackageReadme.Json
open Text

/-! ### Causes -/

/-- What stood where something else was expected. -/
inductive Found where
  | null
  | bool (b : Bool)
  | number (n : Number)
  | string (s : String)
  | list
  | map
  deriving DecidableEq, Repr

def Found.ofJson : Json → Found
  | .null => .null
  | .bool b => .bool b
  | .number n => .number n
  | .string s => .string s
  | .array _ => .list
  | .object _ => .map

inductive Cause where
  | endInValue
  | endInString
  | endInList
  | endInObject
  | expectedValue
  | expectedIdent
  | expectedKey
  | expectedColon
  | expectedListSeparator
  | expectedObjectSeparator
  | trailingComma
  | trailingCharacters
  | invalidNumber
  | numberOutOfRange
  | invalidEscape
  | controlCharacter
  | loneSurrogate
  | brokenPair
  | tooDeep
  | invalidType (found : Found) (expected : String)
  | invalidValue (found : Found) (expected : String)
  | unknownField (name : String) (known : List String)
  | duplicateField (name : String)
  | tooManyElements (count : Nat)
  | tooFewElements (count : Nat) (expected : String)
  | missingField (name : String)
  deriving DecidableEq, Repr

/-! ### Places -/

/-- A place in a text, given by what follows it and by a number of bytes to go on from there. -/
structure Place where
  rest : List Char
  ahead : Nat
  deriving DecidableEq, Repr

/-- Why a text was refused, and where. -/
structure Fault where
  cause : Cause
  place : Place
  deriving DecidableEq, Repr

/-- A fault right before `rest`. -/
def Fault.before (cause : Cause) (rest : List Char) : Fault :=
  ⟨cause, ⟨rest, 0⟩⟩

/-- A fault of the first byte of `rest`, or of its absence. -/
def Fault.at (cause : Cause) (rest : List Char) : Fault :=
  ⟨cause, ⟨rest, 1⟩⟩

/-- A line, counted from one, and the number of bytes of it that lie before a place. -/
structure Position where
  line : Nat
  column : Nat
  deriving DecidableEq, Repr

def Position.step (position : Position) (c : Char) : Position :=
  if c = '\n' then ⟨position.line + 1, 0⟩ else ⟨position.line, position.column + c.utf8Size⟩

/-- The position that lies `bytes` bytes further in the text, or at its end. -/
def Position.forward (position : Position) : (bytes : Nat) → List Char → Position
  | _, [] => position
  | bytes, c :: rest =>
    if c.utf8Size ≤ bytes then (position.step c).forward (bytes - c.utf8Size) rest
    else ⟨position.line, position.column + bytes⟩

/-- Where a place lies in the text that it is a place of. -/
def Place.position (text : List Char) (place : Place) : Position :=
  let seen := text.take (text.length - place.rest.length)
  (seen.foldl Position.step ⟨1, 0⟩).forward place.ahead place.rest

/-! ### Words -/

def Found.text : Found → String
  | .null => "null"
  | .bool b => s!"boolean `{b}`"
  | .number (.natural n) => s!"integer `{n}`"
  | .number (.negative n) => s!"integer `-{n}`"
  | .number (.binary64 bits) => "floating point `" ++ Decimal.Style.inJson.text bits ++ "`"
  | .string s => "string " ++ quoted s
  | .list => "sequence"
  | .map => "map"

/-- Names in backticks, as a choice. -/
def choice (names : List String) : String :=
  match names with
  | [] => "there are no fields"
  | [name] => s!"expected `{name}`"
  | [first, second] => s!"expected `{first}` or `{second}`"
  | names => "expected one of " ++ ", ".intercalate (names.map fun name => s!"`{name}`")

def Cause.text : Cause → String
  | .endInValue => "EOF while parsing a value"
  | .endInString => "EOF while parsing a string"
  | .endInList => "EOF while parsing a list"
  | .endInObject => "EOF while parsing an object"
  | .expectedValue => "expected value"
  | .expectedIdent => "expected ident"
  | .expectedKey => "key must be a string"
  | .expectedColon => "expected `:`"
  | .expectedListSeparator => "expected `,` or `]`"
  | .expectedObjectSeparator => "expected `,` or `\x7d`"
  | .trailingComma => "trailing comma"
  | .trailingCharacters => "trailing characters"
  | .invalidNumber => "invalid number"
  | .numberOutOfRange => "number out of range"
  | .invalidEscape => "invalid escape"
  | .controlCharacter => "control character (\\u0000-\\u001F) found while parsing a string"
  | .loneSurrogate => "lone leading surrogate in hex escape"
  | .brokenPair => "unexpected end of hex escape"
  | .tooDeep => "recursion limit exceeded"
  | .invalidType found expected => "invalid type: " ++ found.text ++ ", expected " ++ expected
  | .invalidValue found expected => "invalid value: " ++ found.text ++ ", expected " ++ expected
  | .unknownField name known => s!"unknown field `{name}`, " ++ choice known
  | .duplicateField name => s!"duplicate field `{name}`"
  | .tooManyElements count => s!"invalid length {count}, expected fewer elements in array"
  | .tooFewElements count expected => s!"invalid length {count}, expected " ++ expected
  | .missingField name => s!"missing field `{name}`"

/-- Why a text was refused, and at which position. -/
structure Rejection where
  cause : Cause
  position : Position
  deriving DecidableEq, Repr

/-- A fault as a rejection of the text that it was found in. -/
def Fault.reject (text : List Char) (fault : Fault) : Rejection :=
  ⟨fault.cause, fault.place.position text⟩

def Rejection.message (rejection : Rejection) : String :=
  rejection.cause.text ++
    s!" at line {rejection.position.line} column {rejection.position.column}"

end PackageReadme.Json
