import PackageReadme.Text.Quoted

/-! Records of what a run does, each of a severity and from a part of the program. -/
namespace PackageReadme

/-- The parts of the program that write records. -/
inductive Area where
  | loading
  | fetching
  | assembly
  | settings
  | command
  deriving DecidableEq, Repr

/-- What a part is called where records are chosen by their part. -/
def Area.name : Area → String
  | .loading => "readmegen::readme"
  | .fetching => "readmegen::fetcher"
  | .assembly => "readmegen::generators::document"
  | .settings => "readmegen_cli::config"
  | .command => "readmegen_cli::commands::generate"

inductive Severity where
  | error
  | warn
  | info
  | debug
  deriving DecidableEq, Repr

namespace Severity

/-- How much is told when records down to a severity are let through. -/
def rank : Severity → Nat
  | .error => 1
  | .warn => 2
  | .info => 3
  | .debug => 4

def name : Severity → String
  | .error => "ERROR"
  | .warn => "WARN"
  | .info => "INFO"
  | .debug => "DEBUG"

end Severity

structure Record where
  area : Area
  severity : Severity
  text : String
  deriving DecidableEq, Repr

namespace Record

def warn (area : Area) (text : String) : Record :=
  ⟨area, .warn, text⟩

def info (area : Area) (text : String) : Record :=
  ⟨area, .info, text⟩

def debug (area : Area) (text : String) : Record :=
  ⟨area, .debug, text⟩

/-- A character of a record on a terminal. Characters that could steer the terminal are written
out. -/
def safeChar (c : Char) : List Char :=
  if c = '\x1b' then "\\x1b".toList
  else if c = '\x07' then "\\x07".toList
  else if c = '\x08' then "\\x08".toList
  else if c = '\x0c' then "\\x0c".toList
  else if c = '\x7f' then "\\x7f".toList
  else if 0x80 ≤ c.toNat && c.toNat ≤ 0x9f then
    ['\\', 'u', '\x7b'] ++ Text.hexadecimal c.toNat ++ ['\x7d']
  else [c]

/-- A record as it is written to a terminal. -/
def safe (record : Record) : Record :=
  { record with text := String.ofList (record.text.toList.flatMap safeChar) }

/-- A record on a line, after its severity. -/
def line (record : Record) : String :=
  record.severity.name ++ " " ++ record.text

end Record
end PackageReadme
