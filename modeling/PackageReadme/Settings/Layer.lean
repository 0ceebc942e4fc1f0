import PackageReadme.Json.Value
import PackageReadme.Keyed

/-! Layers of settings: values of any kind, each with where it comes from.

Layers are laid over one another member by member. Where both have a table, the tables are merged;
anywhere else the upper layer hides the lower one. -/
namespace PackageReadme

/-- Where the value of a setting comes from. -/
inductive Origin where
  | builtIn
  /-- A file, by the path it is shown with. -/
  | file (path : String)
  | environment
  | arguments
  /-- A source that a value claims to come from, which is none of those that are read. -/
  | elsewhere
  deriving DecidableEq, Repr

inductive Scalar where
  | nothing
  | bool (b : Bool)
  | number (n : Number)
  | text (s : String)
  deriving DecidableEq, Repr

inductive Setting where
  | scalar (origin : Origin) (value : Scalar)
  | list (origin : Origin) (items : List Setting)
  | table (origin : Origin) (members : List (String × Setting))
  deriving Repr

namespace Setting

def origin : Setting → Origin
  | .scalar origin _ => origin
  | .list origin _ => origin
  | .table origin _ => origin

/-! ### Origins -/

mutual

/-- A value and all its parts, as if they came from somewhere. -/
def withOrigin (origin : Origin) : Setting → Setting
  | .scalar _ value => .scalar origin value
  | .list _ items => .list origin (itemsWithOrigin origin items)
  | .table _ members => .table origin (membersWithOrigin origin members)

def itemsWithOrigin (origin : Origin) : List Setting → List Setting
  | [] => []
  | item :: rest => withOrigin origin item :: itemsWithOrigin origin rest

def membersWithOrigin (origin : Origin) : List (String × Setting) → List (String × Setting)
  | [] => []
  | (name, value) :: rest => (name, withOrigin origin value) :: membersWithOrigin origin rest

end

/-! ### Merging -/

mutual

/-- A value laid over another. -/
def laidOver (new old : Setting) : Setting :=
  match new with
  | .table origin members =>
    match old with
    | .table _ below => .table origin (membersOver members below)
    | _ => .table origin members
  | new => new

/-- The members of a table laid over those of another. -/
def membersOver (new : List (String × Setting)) (old : Keyed Setting) : Keyed Setting :=
  match new with
  | [] => old
  | (name, value) :: rest =>
    let merged := match old.get? name with
      | some below => laidOver value below
      | none => value
    membersOver rest (Keyed.insert name merged old)

end

/-! ### JSON values as settings

An object may hold a value that stands for the whole object, and with it a number for where that
value comes from. -/

/-- The member that stands for the object it is in. -/
def valueMember : String := "___figment_value_value"

/-- The member with the number of an origin. -/
def originMember : String := "___figment_value_id"

/-- What is known of an object when some of its members have been looked at. -/
structure Parts where
  members : Keyed Setting := []
  value : Option Setting := none
  number : Option Nat := none

/-- The setting of an object that comes from `origin`. The number zero is for `origin` itself. -/
def Parts.setting (origin : Origin) (parts : Parts) : Setting :=
  match parts.value, parts.number with
  | none, _ => .table origin parts.members
  | some value, none => value
  | some value, some 0 => value.withOrigin origin
  | some value, some _ => value.withOrigin .elsewhere

mutual

def ofJson (origin : Origin) : Json → Setting
  | .null => .scalar origin .nothing
  | .bool b => .scalar origin (.bool b)
  | .number n => .scalar origin (.number n)
  | .string s => .scalar origin (.text s)
  | .array items => .list origin (ofItems origin items)
  | .object members => (ofMembers origin {} members).setting origin

def ofItems (origin : Origin) : List Json → List Setting
  | [] => []
  | item :: rest => ofJson origin item :: ofItems origin rest

/-- Members in ascending order of their names, after those before; of one name the last one
counts. -/
def ofMembers (origin : Origin) (before : Parts) : List (String × Json) → Parts
  | [] => before
  | (name, value) :: rest =>
    let setting := ofJson origin value
    ofMembers origin
      (if name = valueMember then { before with value := some setting }
      else if name = originMember then { before with number := value.natural? }
      else { before with members := Keyed.insert name setting before.members })
      rest

end

end Setting
end PackageReadme
