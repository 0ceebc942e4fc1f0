import PackageReadme.Json.Decoder

/-! Records: objects with a fixed set of fields, each of which may be missing.

A record starts from a default value and every field that is there puts its value in place. An array
is accepted too and gives the fields by position. A text names each field at most once; a member of
another name is passed over, unless the record is strict. -/
namespace PackageReadme.Json

/-- A field of records `ρ`: its name, and how its value is read and put into a record. -/
structure Field (ρ : Type) where
  name : String
  read : List Char → Reading (ρ → ρ)
  ofJson : Json → Except Cause (ρ → ρ)
  shortens : ∀ {s : List Char} {r : (ρ → ρ) × List Char}, read s = .ok r → r.2.length < s.length

/-- What a record is called in messages, its default, its fields, and whether it refuses others. -/
structure Shape (ρ : Type) where
  title : String
  initial : ρ
  fields : List (Field ρ)
  strict : Bool := false

section
variable {α ρ : Type}

def readField (decoder : Decoder α) (put : α → ρ → ρ) (s : List Char) : Reading (ρ → ρ) :=
  match decoder.read s with
  | .ok (value, rest) => .ok (put value, rest)
  | .error fault => .error fault

theorem length_readField_lt {decoder : Decoder α} {put : α → ρ → ρ} {s : List Char}
    {r : (ρ → ρ) × List Char} (h : readField decoder put s = .ok r) : r.2.length < s.length := by
  unfold readField at h
  split at h
  · rename_i hd
    have := decoder.shortens hd
    simp only [Except.ok.injEq] at h
    simp only [← h]
    exact this
  · simp at h

/-- The field of a name whose values a decoder reads. -/
def Field.of (name : String) (decoder : Decoder α) (put : α → ρ → ρ) : Field ρ where
  name := name
  read := readField decoder put
  ofJson json := (decoder.ofJson json).map put
  shortens := length_readField_lt

def Shape.field? (shape : Shape ρ) (name : String) : Option (Field ρ) :=
  shape.fields.find? (·.name = name)

def Shape.unknown (shape : Shape ρ) (name : String) : Cause :=
  .unknownField name (shape.fields.map (·.name))

/-! ### Reading -/

/-- A fault of a member's name is placed after the end of the object, if the name stands last in
it. -/
def nameFault (cause : Cause) (rest : List Char) : Fault :=
  .before cause (pastObject rest)

/-- The rest of a record from the next name on, where the names in `seen` stand before. -/
def readFields (shape : Shape ρ) (first : Bool) (seen : List String) (record : ρ) (s : List Char) :
    Reading ρ :=
  match h : nextName first s with
  | .error fault => .error fault
  | .ok (none, rest) => .ok (record, rest)
  | .ok (some name, rest) =>
    have := length_nextName_lt h
    match shape.field? name with
    | none =>
      if shape.strict then .error (nameFault (shape.unknown name) rest)
      else
        match h' : colon rest with
        | .error fault => .error fault
        | .ok rest' =>
          match h'' : skipValue rest' with
          | .error fault => .error fault
          | .ok rest'' =>
            have := length_colon_lt h'
            have := length_skipValue_lt h''
            readFields shape false seen record rest''
    | some field =>
      if name ∈ seen then .error (nameFault (.duplicateField name) rest)
      else
        match h' : colon rest with
        | .error fault => .error fault
        | .ok rest' =>
          match h'' : field.read rest' with
          | .error fault => .error fault
          | .ok (put, rest'') =>
            have := length_colon_lt h'
            have := field.shortens h''
            readFields shape false (name :: seen) (put record) rest''
termination_by s.length
decreasing_by all_goals simp_all; omega

/-- The rest of a record from the next item on, where the items are the given fields. -/
def readPositions (first : Bool) (record : ρ) : List (Field ρ) → List Char → Reading ρ
  | [], s =>
    match endList s with
    | .ok rest => .ok (record, rest)
    | .error fault => .error fault
  | field :: fields, s =>
    match nextItem first s with
    | .error fault => .error fault
    | .ok none => readPositions first record fields s
    | .ok (some t) =>
      match field.read t with
      | .error fault => .error fault
      | .ok (put, rest) => readPositions false (put record) fields rest

def readRecord (shape : Shape ρ) (s : List Char) : Reading ρ :=
  match skipBlanks s with
  | '\x7b' :: rest => readFields shape true [] shape.initial rest
  | '[' :: rest => readPositions true shape.initial shape.fields rest
  | rest => .error (mismatch shape.title rest)

theorem length_readFields_lt {shape : Shape ρ} {first : Bool} {seen : List String} {record : ρ}
    {s : List Char} {r : ρ × List Char} (h : readFields shape first seen record s = .ok r) :
    r.2.length < s.length := by
  fun_induction readFields shape first seen record s with
  | case1 => simp at h
  | case2 _ _ _ _ _ hn =>
    have := length_nextName_lt hn
    simp only [Except.ok.injEq] at h
    simp only [← h]
    exact this
  | case3 => simp at h
  | case4 => simp at h
  | case5 => simp at h
  | case6 =>
    rename_i ih
    have := ih h
    simp_all only
    omega
  | case7 => simp at h
  | case8 => simp at h
  | case9 => simp at h
  | case10 =>
    rename_i ih
    have := ih h
    simp_all only
    omega

theorem length_readPositions_lt {first : Bool} {record : ρ} {fields : List (Field ρ)}
    {s : List Char} {r : ρ × List Char} (h : readPositions first record fields s = .ok r) :
    r.2.length < s.length := by
  fun_induction readPositions first record fields s with
  | case1 _ _ _ _ he =>
    have := length_endList_lt he
    simp only [Except.ok.injEq] at h
    simp only [← h]
    exact this
  | case2 => simp at h
  | case3 => simp at h
  | case4 => simp_all
  | case5 => simp at h
  | case6 _ _ field _ _ _ hn _ _ hr ih =>
    have := ih h
    have := length_nextItem_le hn
    have := field.shortens hr
    simp only at this
    omega

theorem length_readRecord_lt {shape : Shape ρ} {s : List Char} {r : ρ × List Char}
    (h : readRecord shape s = .ok r) : r.2.length < s.length := by
  have hs := length_skipBlanks_le s
  unfold readRecord at h
  split at h
  · rename_i heq
    simp only [heq, List.length_cons] at hs
    have := length_readFields_lt h
    omega
  · rename_i heq
    simp only [heq, List.length_cons] at hs
    have := length_readPositions_lt h
    omega
  · simp at h

/-! ### Taking from a value -/

/-- A record with the given members put in place, in their order. -/
def putMembers (shape : Shape ρ) (record : ρ) : List (String × Json) → Except Cause ρ
  | [] => .ok record
  | (name, json) :: rest =>
    match shape.field? name with
    | none =>
      if shape.strict then .error (shape.unknown name) else putMembers shape record rest
    | some field =>
      match field.ofJson json with
      | .ok put => putMembers shape (put record) rest
      | .error cause => .error cause

/-- A record with the given items put in place, field by field. -/
def putItems (count : Nat) (record : ρ) : List (Field ρ) → List Json → Except Cause ρ
  | _, [] => .ok record
  | [], _ :: _ => .error (.tooManyElements count)
  | field :: fields, json :: rest =>
    match field.ofJson json with
    | .ok put => putItems count (put record) fields rest
    | .error cause => .error cause

def recordOf (shape : Shape ρ) : Json → Except Cause ρ
  | .object members => putMembers shape shape.initial (Keyed.ofEntries members)
  | .array items => putItems items.length shape.initial shape.fields items
  | json => .error (mismatchOf shape.title json)

def Decoder.record (shape : Shape ρ) : Decoder ρ where
  read := readRecord shape
  ofJson := recordOf shape
  shortens := length_readRecord_lt

end
end PackageReadme.Json
