import PackageReadme.Log.Pattern
import PackageReadme.Log.Record
import PackageReadme.Text.Blank
import PackageReadme.Text.Bytes
import PackageReadme.Text.Digits

/-! Directives: how much is told of the records they concern.

A directive is a verbosity, or a target, or both with an equals sign. After the target there may be
brackets with the name of a span, and in them braces with a field, as in
`target[span{field=value}]=debug`. -/
namespace PackageReadme
open Text

/-- How much is told, where 0 is nothing and 5 is all. -/
abbrev Verbosity := Nat

/-- A field that records must have, and whether it must have a certain value. -/
structure FieldDemand where
  name : String
  valued : Bool
  deriving DecidableEq, Repr

structure Directive where
  target : Option String := none
  span : Option String := none
  field : Option FieldDemand := none
  verbosity : Verbosity := 5
  deriving DecidableEq, Repr

/-- Why a text is no directive: it is not of the form, or it cannot be cut at its parts. -/
inductive DirectiveFault where
  | malformed
  | broken (slice : BrokenSlice)
  deriving DecidableEq, Repr

namespace Directive

/-! ### What a directive concerns -/

/-- Whether a directive concerns records of a part of the program. They lie in no span, and the only
field they have is their message, of which no value is known beforehand. -/
def concerns (directive : Directive) (area : Area) : Bool :=
  (match directive.target with
  | none => true
  | some target => target.toList.isPrefixOf area.name.toList) &&
    directive.span.isNone &&
    (match directive.field with
    | none => true
    | some field => field.name = "message" && !field.valued)

/-- Whether a directive aims at least as closely as another: by the length of its target, and then
by whether it asks for a field. -/
def asPrecise (directive other : Directive) : Bool :=
  let length (directive : Directive) : Nat :=
    match directive.target with
    | none => 0
    | some target => target.utf8ByteSize + 1
  length other < length directive ||
    (length other = length directive && (other.field.isNone || directive.field.isSome))

/-! ### Texts -/

/-- A verbosity by its name, in upper or lower case, or by its number. -/
def verbosity? (s : List Char) : Option Verbosity :=
  match positive? s with
  | some n => if n ≤ 5 then some n else none
  | none =>
    [("off", 0), ("error", 1), ("warn", 2), ("info", 3), ("debug", 4), ("trace", 5)].lookup
      (String.ofList (s.map Char.toLower))

/-- A character that a target may start with. -/
def startsTarget (c : Char) : Bool :=
  c = '-' || c = ':' || c = '_' || isAlphanumeric c

/-- The part of a text from one byte up to another. -/
def cutOut (start stop : Nat) (s : List Char) : Except DirectiveFault (List Char) :=
  (slice start stop s).mapError .broken

/-- The verbosity from a byte on; all is told if there is none. -/
def readVerbosity (whole : List Char) (start : Nat) : Except DirectiveFault Verbosity :=
  match sliceFrom start whole with
  | .error broken => .error (.broken broken)
  | .ok [] => .ok 5
  | .ok level =>
    match verbosity? level with
    | some verbosity => .ok verbosity
    | none => .error .malformed

/-- What follows the brackets, from a byte on. -/
def readEnd (whole : List Char) (directive : Directive) (start : Nat) :
    List Char → Except DirectiveFault Directive
  | [] => .ok directive
  | '=' :: _ =>
    (readVerbosity whole (start + 1)).map fun verbosity => { directive with verbosity }
  | _ => .error .malformed

/-- A field, with the value after an equals sign. -/
def readDemand (s : List Char) : Except DirectiveFault FieldDemand :=
  match s.isEmpty, cut '=' s with
  | false, [name] => .ok ⟨String.ofList name, false⟩
  | false, name :: value :: _ =>
    if Pattern.isValue value then .ok ⟨String.ofList name, true⟩ else .error .malformed
  | _, _ => .error .malformed

/-- The braces and what follows them, from a byte on. -/
def readField (whole : List Char) (directive : Directive) (start : Nat) (s : List Char) :
    Except DirectiveFault Directive :=
  let text := s.takeWhile (· != '\x7d')
  let stop := start + byteSize text
  match s.drop text.length with
  | [] => .error .malformed
  | _ :: rest =>
    match (cutOut start stop whole).bind readDemand, rest with
    | .error fault, _ => .error fault
    | .ok field, ']' :: rest => readEnd whole { directive with field := some field } (stop + 2) rest
    | .ok _, _ => .error .malformed

/-- The brackets and what follows them, from a byte on. -/
def readSpan (whole : List Char) (target : Option String) (start : Nat) (s : List Char) :
    Except DirectiveFault Directive :=
  let name := s.takeWhile fun c => c != ']' && c != '\x7b'
  let stop := start + byteSize name
  match s.drop name.length with
  | [] => .error .malformed
  | mark :: rest =>
    match cutOut start stop whole with
    | .error fault => .error fault
    | .ok name =>
      let span := if mark = ']' || !name.isEmpty then some (String.ofList name) else none
      if mark = ']' then readEnd whole { target, span } (stop + 1) rest
      else readField whole { target, span } (stop + 1) rest

/-- Reads a directive. Its form is looked at without the blanks around it, but its parts are cut out
of the whole text at the places that they have without the blanks, so that a blank in front moves
them all. -/
def read (whole : List Char) : Except DirectiveFault Directive :=
  match trim whole with
  | [] => .error .malformed
  | '[' :: rest => readSpan whole none 1 rest
  | c :: rest =>
    let target := (c :: rest).takeWhile fun c => c != '=' && c != '['
    let stop := byteSize target
    if !startsTarget c then .error .malformed
    else
      match (c :: rest).drop target.length with
      | [] =>
        match verbosity? whole with
        | some verbosity => .ok { verbosity }
        | none => .ok { target := some (String.ofList whole) }
      | mark :: rest =>
        match cutOut 0 stop whole with
        | .error fault => .error fault
        | .ok target =>
          let target := some (String.ofList target)
          if mark = '=' then
            (readVerbosity whole (stop + 1)).map fun verbosity => { target, verbosity }
          else readSpan whole target (stop + 1) rest

end Directive
end PackageReadme
