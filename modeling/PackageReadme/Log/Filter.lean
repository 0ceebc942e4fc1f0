import PackageReadme.Log.Directive

/-! Which records are let through.

A filter is a list of directives. Of those that concern a record, the most precise one decides; if
there is none, the record is not let through. -/
namespace PackageReadme

abbrev Filter := List Directive

namespace Filter

/-- The directive that decides on a part: the most precise one, and of equal ones the last. -/
def decisive? (filter : Filter) (area : Area) : Option Directive :=
  filter.foldl
    (fun best directive =>
      if directive.concerns area then
        match best with
        | none => some directive
        | some other => if directive.asPrecise other then some directive else some other
      else best)
    none

def lets (filter : Filter) (record : Record) : Bool :=
  match filter.decisive? record.area with
  | none => false
  | some directive => record.severity.rank ≤ directive.verbosity

/-- The same verbosity for all parts of the program. -/
def uniform (verbosity : Verbosity) : Filter :=
  [{ target := some "readmegen", verbosity }, { target := some "readmegen_cli", verbosity }]

/-- The filter of a text, directives between commas. No directive at all lets errors through
only. -/
def read (text : String) : Except DirectiveFault Filter :=
  match (Text.cut ',' text.toList).filter fun part => !part.isEmpty with
  | [] => .ok [{ verbosity := 1 }]
  | parts => parts.mapM Directive.read

end Filter
end PackageReadme
