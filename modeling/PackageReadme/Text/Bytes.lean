import PackageReadme.Text.Quoted

/-! Cutting a text after a number of bytes.

A character takes one to four bytes, so that a cut may fall inside a character. Such a cut cannot be
made, and the message about it names the character. -/
namespace PackageReadme.Text

/-- How many bytes a text takes. -/
def byteSize : List Char → Nat
  | [] => 0
  | c :: cs => c.utf8Size + byteSize cs

/-- The bytes of a text. -/
def utf8 (s : List Char) : List UInt8 :=
  s.flatMap String.utf8EncodeChar

/-- A character that a cut falls inside, and how many of its bytes lie before the cut. -/
structure Straddle where
  char : Char
  before : Nat
  deriving DecidableEq, Repr

/-- A text in two, the first part of so many bytes. -/
def splitBytes (bytes : Nat) : List Char → Except Straddle (List Char × List Char)
  | [] => .ok ([], [])
  | c :: cs =>
    if bytes = 0 then .ok ([], c :: cs)
    else if bytes < c.utf8Size then .error ⟨c, bytes⟩
    else
      match splitBytes (bytes - c.utf8Size) cs with
      | .ok (front, rest) => .ok (c :: front, rest)
      | .error straddle => .error straddle

/-- A cut between two characters can be made. -/
theorem splitBytes_byteSize (front rest : List Char) :
    splitBytes (byteSize front) (front ++ rest) = .ok (front, rest) := by
  induction front with
  | nil => cases rest <;> rfl
  | cons c front ih =>
    have hpos : 0 < c.utf8Size := Char.utf8Size_pos c
    have hne : byteSize (c :: front) ≠ 0 := by
      rw [byteSize]
      omega
    have hle : ¬ byteSize (c :: front) < c.utf8Size := by
      rw [byteSize]
      omega
    have hrest : byteSize (c :: front) - c.utf8Size = byteSize front := by
      rw [byteSize]
      omega
    rw [List.cons_append, splitBytes, if_neg hne, if_neg hle, hrest, ih]

/-- The two ends of a part of a text. -/
inductive Edge where
  | start
  | stop
  deriving DecidableEq, Repr

/-- A part of a text that cannot be had, because one of its ends lies inside a character. -/
structure BrokenSlice where
  edge : Edge
  /-- Where that end lies in the text, in bytes. -/
  place : Nat
  straddle : Straddle
  deriving DecidableEq, Repr

def Edge.name : Edge → String
  | .start => "start"
  | .stop => "end"

def BrokenSlice.text (broken : BrokenSlice) : String :=
  let char := broken.straddle.char
  let first := broken.place - broken.straddle.before
  s!"{broken.edge.name} byte index {broken.place} is not a char boundary; it is inside '" ++
    String.ofList (quotedChar char) ++ s!"' (bytes {first}..{first + char.utf8Size} of string)"

/-- The part of a text from one byte up to another. -/
def slice (start stop : Nat) (s : List Char) : Except BrokenSlice (List Char) :=
  match splitBytes start s with
  | .error straddle => .error ⟨.start, start, straddle⟩
  | .ok (_, rest) =>
    match splitBytes (stop - start) rest with
    | .error straddle => .error ⟨.stop, stop, straddle⟩
    | .ok (part, _) => .ok part

theorem slice_byteSize (front rest : List Char) :
    slice 0 (byteSize front) (front ++ rest) = .ok front := by
  have hstart : splitBytes 0 (front ++ rest) = .ok ([], front ++ rest) := by
    cases front ++ rest <;> rfl
  simp only [slice, hstart, Nat.sub_zero, splitBytes_byteSize]

/-- The part of a text from a byte on. -/
def sliceFrom (start : Nat) (s : List Char) : Except BrokenSlice (List Char) :=
  match splitBytes start s with
  | .error straddle => .error ⟨.start, start, straddle⟩
  | .ok (_, rest) => .ok rest

end PackageReadme.Text
