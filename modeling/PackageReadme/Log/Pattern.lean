import PackageReadme.Text.Alphanumeric
import PackageReadme.Text.Digits
import PackageReadme.Text.Start

/-! Patterns for the values of fields.

A value in a directive is a number or a regular expression. Nothing is ever held against it, so all
that counts is whether it is one. A text that reaches here holds no closing brace, so that whatever
needs one is refused. Word boundaries are refused too, unless they go by ASCII letters alone. -/
namespace PackageReadme.Pattern
open Text

/-! ### Atoms -/

/-- The smallest parts of a pattern. -/
inductive Atom where
  | char (c : Char)
  /-- A character given by two digits, which is a byte where patterns are about bytes. -/
  | byte (n : Nat)
  /-- Digits, blanks or word characters, or all others. -/
  | kind (negated : Bool)
  /-- The characters of a general category. -/
  | category
  /-- Any character but the end of a line. -/
  | any
  /-- The start or the end of a line or of the text. -/
  | place
  /-- The start or the end of a word. -/
  | boundary
  deriving DecidableEq, Repr

namespace Atom

/-- The code point of an atom that is a single character. -/
def code? : Atom → Option Nat
  | .char c => some c.toNat
  | .byte n => some n
  | _ => none

/-- Whether an atom may stand for itself. Where patterns are about bytes, it must not stand for
parts of characters. -/
def fits (unicode : Bool) : Atom → Bool
  | .char _ | .place => true
  | .byte n => unicode || n < 128
  | .kind negated => unicode || !negated
  | .category | .any => unicode
  | .boundary => !unicode

/-- Whether an atom may stand in a class. -/
def fitsClass (unicode : Bool) : Atom → Bool
  | .char c => unicode || c.toNat < 128
  | .byte n => unicode || n < 128
  | .kind negated => unicode || !negated
  | .category => unicode
  | .any | .place | .boundary => false

end Atom

/-- The number of exactly so many hexadecimal digits, and the rest. -/
def readHex? (count : Nat) (s : List Char) : Option (Nat × List Char) :=
  if s.length < count then none
  else (hexadecimal? (s.take count)).map fun n => (n, s.drop count)

/-- A character by its code point in so many digits, and the rest. -/
def readCodePoint? (count : Nat) (s : List Char) : Option (Atom × List Char) :=
  (readHex? count s).bind fun (n, rest) => (codePoint? n).map fun c => (.char c, rest)

/-- A general category by its letter, and the rest. -/
def readCategory? : List Char → Option (Atom × List Char)
  | [] => none
  | c :: rest =>
    if ['c', 'l', 'm', 'n', 'p', 's', 'z'].contains c.toLower then some (.category, rest) else none

/-- What a letter after a backslash stands for. -/
def letter? (c : Char) : Option Atom :=
  [('d', .kind false), ('s', .kind false), ('w', .kind false), ('D', .kind true), ('S', .kind true),
   ('W', .kind true), ('a', .char '\x07'), ('f', .char '\x0c'), ('n', .char '\n'),
   ('r', .char '\r'), ('t', .char '\t'), ('v', .char '\x0b'), ('A', .place), ('z', .place),
   ('b', .boundary), ('B', .boundary), ('<', .boundary), ('>', .boundary)].lookup c

/-- The atom after a backslash, and the rest. -/
def readEscape? : List Char → Option (Atom × List Char)
  | [] => none
  | 'x' :: rest => (readHex? 2 rest).map fun (n, rest) => (.byte n, rest)
  | 'u' :: rest => readCodePoint? 4 rest
  | 'U' :: rest => readCodePoint? 8 rest
  | 'p' :: rest => readCategory? rest
  | 'P' :: rest => readCategory? rest
  | c :: rest =>
    match letter? c with
    | some atom => some (atom, rest)
    | none => if c.toNat < 128 && !c.isAlphanum then some (.char c, rest) else none

/-! ### Classes -/

def classNames : List String :=
  ["alnum", "alpha", "ascii", "blank", "cntrl", "digit", "graph", "lower", "print", "punct",
   "space", "upper", "word", "xdigit"]

/-- A class by its name, after a bracket: whether all others are meant, and the rest. -/
def readNamedClass? (s : List Char) : Option (Bool × List Char) :=
  match after? [':'] s with
  | none => none
  | some s =>
    let negated := s.head? = some '^'
    let s := if negated then s.drop 1 else s
    let name := s.takeWhile (· != ':')
    match after? [':', ']'] (s.drop name.length) with
    | some rest => if classNames.contains (String.ofList name) then some (negated, rest) else none
    | none => none

/-- The start of a class, after a bracket: hyphens and one closing bracket stand for themselves
there. -/
def openClass? (unicode : Bool) (s : List Char) : Option (List Char) :=
  let negated := s.head? = some '^'
  let s := if negated then s.drop 1 else s
  if negated && !unicode then none
  else
    match s with
    | ']' :: rest => some rest
    | s => some (s.dropWhile (· == '-'))

/-- A single atom in a class, and the rest. -/
def readClassAtom? : List Char → Option (Atom × List Char)
  | [] => none
  | '\\' :: rest => readEscape? rest
  | c :: rest => some (.char c, rest)

/-- An atom or a range in a class, and the rest. A hyphen makes a range, unless a closing bracket or
another hyphen follows. -/
def readRange? (unicode : Bool) (s : List Char) : Option (List Char) :=
  match readClassAtom? s with
  | none => none
  | some (first, rest) =>
    if !first.fitsClass unicode then none
    else
      match rest with
      | '-' :: ']' :: _ | '-' :: '-' :: _ => some rest
      | '-' :: rest =>
        match readClassAtom? rest with
        | none => none
        | some (last, rest) =>
          match first.code?, last.code? with
          | some low, some high =>
            if last.fitsClass unicode && low ≤ high then some rest else none
          | _, _ => none
      | rest => some rest

/-- The next part of a class, where so many classes are open, and the rest. Two classes are joined
by a sign that stands twice. -/
def stepClass? (unicode : Bool) (depth : Nat) : List Char → Option (Nat × List Char)
  | [] => none
  | ']' :: rest => some (depth - 1, rest)
  | '[' :: rest =>
    match readNamedClass? rest with
    | some (negated, rest) => if negated && !unicode then none else some (depth, rest)
    | none => (openClass? unicode rest).map (depth + 1, ·)
  | '&' :: '&' :: rest | '-' :: '-' :: rest | '~' :: '~' :: rest => some (depth, rest)
  | s => (readRange? unicode s).map (depth, ·)

/-- The rest after classes that lie in one another, so many of them still open. -/
def readClass? (unicode : Bool) (depth : Nat) (s : List Char) : Option (List Char) :=
  if depth = 0 then some s
  else
    match stepClass? unicode depth s with
    | none => none
    | some (depth, rest) => if rest.length < s.length then readClass? unicode depth rest else none
termination_by s.length

/-! ### Groups -/

/-- A letter of the name of a group. -/
def isNameLetter (c : Char) : Bool :=
  c = '_' || c = '.' || c = '[' || c = ']' || isAlphanumeric c

/-- The name of a group up to its end, and the rest. -/
def readName? (s : List Char) : Option (List Char × List Char) :=
  let name := s.takeWhile (· != '>')
  match s.drop name.length, name with
  | _ :: rest, first :: _ =>
    if (first = '_' || isAlphabetic first) && name.all isNameLetter then some (name, rest) else none
  | _, _ => none

/-- Whether flags can be set together: each of them once, those after a hyphen to be cleared. -/
def areFlags (flags : List Char) : Bool :=
  flags.all (fun c => ['i', 'm', 's', 'U', 'u', 'R', 'x', '-'].contains c) &&
    flags.eraseDups == flags &&
    flags.getLast? != some '-'

/-- Whether a pattern is about characters and not about bytes, after flags. -/
def withFlags (flags : List Char) (unicode : Bool) : Bool :=
  if (flags.takeWhile (· != '-')).contains 'u' then true
  else if flags.contains 'u' then false
  else unicode

/-! ### Whole patterns -/

/-- What is known of the front of a pattern. -/
structure State where
  unicode : Bool := true
  /-- What `unicode` was before each open group, the innermost first. -/
  groups : List Bool := []
  /-- Whether there is something that can be repeated. -/
  repeatable : Bool := false
  names : List (List Char) := []

namespace State

def put (state : State) : State :=
  { state with repeatable := true }

def openGroup (state : State) (unicode : Bool) : State :=
  { state with unicode, groups := state.unicode :: state.groups, repeatable := false }

def openNamed? (state : State) (s : List Char) : Option (State × List Char) :=
  match readName? s with
  | none => none
  | some (name, rest) =>
    if state.names.contains name then none
    else some ({ state.openGroup state.unicode with names := name :: state.names }, rest)

/-- Flags, for the rest of the group or for one of their own. -/
def readFlags? (state : State) (s : List Char) : Option (State × List Char) :=
  let flags := s.takeWhile fun c => c != ':' && c != ')'
  let unicode := withFlags flags state.unicode
  match s.drop flags.length with
  | [] => none
  | mark :: rest =>
    if !areFlags flags then none
    else if mark = ':' then some (state.openGroup unicode, rest)
    else if flags.isEmpty then none
    else some ({ state with unicode, repeatable := false }, rest)

def closeGroup? (state : State) : Option State :=
  match state.groups with
  | [] => none
  | unicode :: groups => some { state with unicode, groups, repeatable := true }

def putAtom? (state : State) (atom : Atom) : Option State :=
  if atom.fits state.unicode then some state.put else none

/-- The next part of a pattern. -/
def step? (state : State) : List Char → Option (State × List Char)
  | [] => none
  | '(' :: '?' :: 'P' :: '<' :: rest => state.openNamed? rest
  | '(' :: '?' :: '<' :: rest => state.openNamed? rest
  | '(' :: '?' :: rest => state.readFlags? rest
  | '(' :: rest => some (state.openGroup state.unicode, rest)
  | ')' :: rest => state.closeGroup?.map (·, rest)
  | '|' :: rest => some ({ state with repeatable := false }, rest)
  | '[' :: rest =>
    ((openClass? state.unicode rest).bind (readClass? state.unicode 1)).map (state.put, ·)
  | '\\' :: rest =>
    (readEscape? rest).bind fun (atom, rest) => (state.putAtom? atom).map (·, rest)
  | c :: rest =>
    if c = '?' || c = '*' || c = '+' then
      if state.repeatable then
        some (state, match rest with
          | '?' :: rest => rest
          | rest => rest)
      else none
    else if c = '\x7b' then none
    else if c = '.' then (state.putAtom? .any).map (·, rest)
    else some (state.put, rest)

/-- Whether a pattern can end with this text. -/
def accepts (state : State) (s : List Char) : Bool :=
  match s with
  | [] => state.groups.isEmpty
  | s =>
    match state.step? s with
    | none => false
    | some (state, rest) => if rest.length < s.length then state.accepts rest else false
termination_by s.length

end State

/-! ### Numbers -/

def isExponent : List Char → Bool
  | [] => true
  | mark :: rest =>
    (mark = 'e' || mark = 'E') &&
      match rest with
      | '-' :: rest => (decimal? rest).isSome
      | rest => (positive? rest).isSome

/-- Whether a text is a decimal number without a sign. -/
def isDecimal (s : List Char) : Bool :=
  let whole := s.takeWhile Char.isDigit
  let (fraction, rest) := match s.drop whole.length with
    | '.' :: rest => (rest.takeWhile Char.isDigit, rest.dropWhile Char.isDigit)
    | rest => ([], rest)
  !(whole ++ fraction).isEmpty && isExponent rest

/-- Whether a text is a number with a plus sign. All other numbers are patterns too. -/
def isPositive : List Char → Bool
  | '+' :: rest =>
    isDecimal rest ||
      ["inf", "infinity", "nan"].contains (String.ofList (rest.map Char.toLower))
  | _ => false

/-- Whether a text is the value of a field: a number or a pattern. -/
def isValue (s : List Char) : Bool :=
  isPositive s || State.accepts {} s

end PackageReadme.Pattern
