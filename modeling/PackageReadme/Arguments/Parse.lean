import PackageReadme.Arguments.Invocation
import PackageReadme.Text.Digits

/-! Reading arguments.

A parameter takes its value from behind an equals sign, from the rest of its letters, or from the
next argument, unless that starts with a dash. Its value is looked at when the next parameter,
switch or import path comes, or at the end. Nothing may be given twice. After two dashes alone, only
the import path follows. -/
namespace PackageReadme.Arguments

/-! ### One argument -/

inductive Argument where
  /-- Two dashes alone. -/
  | escape
  | long (name : List Char) (value : Option (List Char))
  | short (letters : List Char)
  | plain (text : String)
  deriving DecidableEq, Repr

def Argument.ofText (text : String) : Argument :=
  match text.toList with
  | ['-', '-'] => .escape
  | '-' :: '-' :: rest =>
    match rest.dropWhile (· != '=') with
    | [] => .long rest none
    | _ :: value => .long (rest.takeWhile (· != '=')) (some value)
  | '-' :: c :: rest => .short (c :: rest)
  | _ => .plain text

/-! ### Values -/

/-- A whole number of 64 bits, with or without a plus sign. -/
def readSeconds? (text : String) : Option UInt64 :=
  match Text.positive? text.toList with
  | some n => if n < Nat.pow 2 64 then some (UInt64.ofNat n) else none
  | none => none

/-- What was given so far. -/
structure Draft where
  importPath : Option String := none
  manifest : Option String := none
  config : Option String := none
  output : Option String := none
  format : Option Format := none
  timeout : Option UInt64 := none
  title : Option String := none
  shownPath : Option String := none
  isOn : Switch → Bool := fun _ => false

namespace Draft

def has (draft : Draft) : Parameter → Bool
  | .manifest => draft.manifest.isSome
  | .config => draft.config.isSome
  | .output => draft.output.isSome
  | .format => draft.format.isSome
  | .timeout => draft.timeout.isSome
  | .title => draft.title.isSome
  | .importPath => draft.shownPath.isSome

/-- Sets a parameter to a value: files are not empty, formats are known, and seconds are a
number. -/
def set (draft : Draft) (parameter : Parameter) (value : String) : Except UsageFault Draft :=
  match parameter with
  | .manifest =>
    if value = "" then .error .invalidValue else .ok { draft with manifest := some value }
  | .config => if value = "" then .error .invalidValue else .ok { draft with config := some value }
  | .output => if value = "" then .error .invalidValue else .ok { draft with output := some value }
  | .format =>
    match Format.ofName? value with
    | some format => .ok { draft with format := some format }
    | none => .error .invalidValue
  | .timeout =>
    match readSeconds? value with
    | some seconds => .ok { draft with timeout := some seconds }
    | none => .error .unreadableValue
  | .title => .ok { draft with title := some value }
  | .importPath => .ok { draft with shownPath := some value }

/-- Sets a parameter that was not given before. -/
def give (draft : Draft) (parameter : Parameter) (value : String) : Except UsageFault Draft :=
  if draft.has parameter then .error .conflict else draft.set parameter value

/-- Turns a switch on that was not on before. -/
def turnOn (draft : Draft) (switch : Switch) : Except UsageFault Draft :=
  if draft.isOn switch then .error .conflict
  else .ok { draft with isOn := fun s => s = switch || draft.isOn s }

/-- A parameter that waits for its value, or whose value was not looked at yet. -/
abbrev Pending := Option (Parameter × Option String)

/-- Looks at what is pending. -/
def settle (draft : Draft) : Pending → Except UsageFault Draft
  | none => .ok draft
  | some (_, none) => .error .invalidValue
  | some (parameter, some value) => draft.give parameter value

/-- Puts the import path in place; there is only one. -/
def putPath (draft : Draft) (pending : Pending) (text : String) : Except UsageFault Draft :=
  if draft.importPath.isSome then .error .unknownArgument
  else (draft.settle pending).map fun draft => { draft with importPath := some text }

end Draft

open Draft

/-! ### All arguments -/

/-- A key without a value, when all that was pending is settled. -/
def readKey (draft : Draft) : Key → Except UsageFault (Draft × Pending)
  | .switch switch => (draft.turnOn switch).map (·, none)
  | .parameter parameter => .ok (draft, some (parameter, none))
  | .help => .error .helpWanted
  | .version => .error .versionWanted

/-- The letters after one dash. Those after a parameter are its value. -/
def readLetters (draft : Draft) (pending : Pending) :
    List Char → Except UsageFault (Draft × Pending)
  | [] => .ok (draft, pending)
  | letter :: rest =>
    match Key.ofShort? letter with
    | none => .error .unknownArgument
    | some key =>
      match draft.settle pending with
      | .error fault => .error fault
      | .ok draft =>
        match key, rest with
        | .parameter parameter, '=' :: value =>
          (draft.give parameter (String.ofList value)).map (·, none)
        | .parameter parameter, c :: value =>
          (draft.give parameter (String.ofList (c :: value))).map (·, none)
        | key, rest =>
          match readKey draft key with
          | .error fault => .error fault
          | .ok (draft, pending) => readLetters draft pending rest

/-- A name after two dashes, and the value behind an equals sign. -/
def readLong (draft : Draft) (pending : Pending) (name : List Char) (value : Option (List Char)) :
    Except UsageFault (Draft × Pending) :=
  match Key.ofLong? name, value with
  | none, _ => .error .unknownArgument
  | some (.parameter parameter), some value =>
    match draft.settle pending with
    | .error fault => .error fault
    | .ok draft => (draft.give parameter (String.ofList value)).map (·, none)
  | some _, some _ => .error .tooManyValues
  | some key, none =>
    match draft.settle pending with
    | .error fault => .error fault
    | .ok draft => readKey draft key

/-- An argument before two dashes alone. -/
def readArgument (draft : Draft) (pending : Pending) :
    Argument → Except UsageFault (Draft × Pending)
  | .escape => .ok (draft, pending)
  | .long name value => readLong draft pending name value
  | .short letters => readLetters draft pending letters
  | .plain text =>
    match pending with
    | some (parameter, none) => .ok (draft, some (parameter, some text))
    | pending => (draft.putPath pending text).map (·, none)

/-- The arguments after two dashes alone. -/
def readPaths (draft : Draft) (pending : Pending) : List String → Except UsageFault Draft
  | [] => draft.settle pending
  | text :: rest =>
    match draft.putPath pending text with
    | .error fault => .error fault
    | .ok draft => readPaths draft none rest

def readAll (draft : Draft) (pending : Pending) : List String → Except UsageFault Draft
  | [] => draft.settle pending
  | text :: rest =>
    if Argument.ofText text = .escape then readPaths draft pending rest
    else
      match readArgument draft pending (.ofText text) with
      | .error fault => .error fault
      | .ok (draft, pending) => readAll draft pending rest

/-- What a draft asks for. A manifest is needed, and a run is not both verbose and quiet. -/
def Draft.finish (draft : Draft) : Except UsageFault Invocation :=
  if draft.isOn .verbose && draft.isOn .quiet then .error .conflict
  else
    match draft.manifest with
    | none => .error .missingArgument
    | some manifest =>
      .ok
        { importPath := draft.importPath.getD "."
          manifest
          config := draft.config
          output := draft.output
          format := draft.format.getD .markdown
          timeout := draft.timeout
          title := draft.title
          shownPath := draft.shownPath
          isOn := draft.isOn }

/-- What arguments ask for. -/
def parse (arguments : List String) : Except UsageFault Invocation :=
  match readAll {} none arguments with
  | .error fault => .error fault
  | .ok draft => draft.finish

end PackageReadme.Arguments
