/-! Maps from texts, kept as lists of entries in ascending order of their keys. -/
namespace PackageReadme

/-- A map from texts, as a list of entries. -/
abbrev Keyed (α : Type) := List (String × α)

namespace Keyed
variable {α β : Type}

/-- Sets the value at a key, in the key's place. -/
def insert (key : String) (value : α) : Keyed α → Keyed α
  | [] => [(key, value)]
  | (k, v) :: rest =>
    if key = k then (key, value) :: rest
    else if key < k then (key, value) :: (k, v) :: rest
    else (k, v) :: insert key value rest

def get? (key : String) (entries : Keyed α) : Option α :=
  entries.lookup key

/-- The entries in ascending order of their keys; of two entries with one key the later one
stays. -/
def ofEntries (entries : List (String × α)) : Keyed α :=
  entries.foldl (fun sorted (key, value) => insert key value sorted) []

end Keyed
end PackageReadme
