import PackageReadme.Json.Skip
import PackageReadme.Keyed

/-! Decoders: how values of a type are read from a JSON text, and how they are taken from a JSON
value.

Reading checks types while it goes along the text, so the first fault in the text is the one
reported, whether of form or of type. A value that is already there is checked member by member in
the order of their names. -/
namespace PackageReadme.Json

/-- How values of a type are read from a text and taken from a JSON value. A reading shortens the
text. -/
structure Decoder (α : Type) where
  read : List Char → Reading α
  ofJson : Json → Except Cause α
  shortens : ∀ {s : List Char} {r : α × List Char}, read s = .ok r → r.2.length < s.length

/-! ### Values of another type -/

/-- The fault of a value of another type than expected. A scalar is read to its end first. -/
def mismatch (expected : String) : List Char → Fault
  | [] => .at .endInValue []
  | 'n' :: rest =>
    match keyword ['u', 'l', 'l'] rest with
    | .ok rest => .before (.invalidType .null expected) rest
    | .error fault => fault
  | 't' :: rest =>
    match keyword ['r', 'u', 'e'] rest with
    | .ok rest => .before (.invalidType (.bool true) expected) rest
    | .error fault => fault
  | 'f' :: rest =>
    match keyword ['a', 'l', 's', 'e'] rest with
    | .ok rest => .before (.invalidType (.bool false) expected) rest
    | .error fault => fault
  | '-' :: rest =>
    match unsigned false rest with
    | .ok (n, rest) => .before (.invalidType (.number n) expected) rest
    | .error fault => fault
  | '"' :: rest =>
    match stringBody rest with
    | .ok (s, rest) => .before (.invalidType (.string (String.ofList s)) expected) rest
    | .error fault => fault
  | '[' :: rest => .before (.invalidType .list expected) ('[' :: rest)
  | '\x7b' :: rest => .before (.invalidType .map expected) ('\x7b' :: rest)
  | c :: rest =>
    if c.isDigit then
      match unsigned true (c :: rest) with
      | .ok (n, rest) => .before (.invalidType (.number n) expected) rest
      | .error fault => fault
    else .at .expectedValue (c :: rest)

/-- The cause of a value of another type than expected. -/
def mismatchOf (expected : String) (json : Json) : Cause :=
  .invalidType (.ofJson json) expected

/-! ### Scalars -/

def readBool (s : List Char) : Reading Bool :=
  match skipBlanks s with
  | 't' :: rest =>
    match keyword ['r', 'u', 'e'] rest with
    | .ok rest => .ok (true, rest)
    | .error fault => .error fault
  | 'f' :: rest =>
    match keyword ['a', 'l', 's', 'e'] rest with
    | .ok rest => .ok (false, rest)
    | .error fault => .error fault
  | rest => .error (mismatch "a boolean" rest)

def readString (s : List Char) : Reading String :=
  match skipBlanks s with
  | '"' :: rest =>
    match stringBody rest with
    | .ok (s, rest) => .ok (String.ofList s, rest)
    | .error fault => .error fault
  | rest => .error (mismatch "a string" rest)

/-- A number as a 32-bit word. -/
def wordOf : Number → Except Cause UInt32
  | .natural n =>
    if n < Nat.pow 2 32 then .ok (UInt32.ofNat n)
      else .error (.invalidValue (.number (.natural n)) "u32")
  | .negative n => .error (.invalidValue (.number (.negative n)) "u32")
  | .binary64 bits => .error (.invalidType (.number (.binary64 bits)) "u32")

/-- The number at the front of a text, if one is there. -/
def readNumber? : List Char → Option (Reading Number)
  | '-' :: rest => some (unsigned false rest)
  | c :: rest => if c.isDigit then some (unsigned true (c :: rest)) else none
  | [] => none

def readWord (s : List Char) : Reading UInt32 :=
  match readNumber? (skipBlanks s) with
  | some (.ok (n, rest)) =>
    match wordOf n with
    | .ok word => .ok (word, rest)
    | .error cause => .error (.before cause rest)
  | some (.error fault) => .error fault
  | none => .error (mismatch "u32" (skipBlanks s))

theorem length_readBool_lt {s : List Char} {r : Bool × List Char} (h : readBool s = .ok r) :
    r.2.length < s.length := by
  have hs := length_skipBlanks_le s
  unfold readBool at h
  split at h
  case h_3 => simp at h
  all_goals
    rename_i heq
    simp only [heq, List.length_cons] at hs
    split at h
    · rename_i hk
      have := length_keyword_le hk
      simp only [Except.ok.injEq] at h
      simp only [← h]
      omega
    · simp at h

theorem length_readString_lt {s : List Char} {r : String × List Char} (h : readString s = .ok r) :
    r.2.length < s.length := by
  have hs := length_skipBlanks_le s
  unfold readString at h
  split at h
  · rename_i heq
    simp only [heq, List.length_cons] at hs
    split at h
    · rename_i hk
      have := length_stringBody_lt hk
      simp only [Except.ok.injEq] at h
      simp only [← h]
      simp only at this
      omega
    · simp at h
  · simp at h

theorem length_readNumber?_lt {s : List Char} {r : Number × List Char}
    (h : readNumber? s = some (.ok r)) : r.2.length < s.length := by
  unfold readNumber? at h
  split at h
  · have := length_unsigned_lt (Option.some.inj h)
    simp only [List.length_cons]
    omega
  · split at h
    · exact length_unsigned_lt (Option.some.inj h)
    · simp at h
  · simp at h

theorem length_readWord_lt {s : List Char} {r : UInt32 × List Char} (h : readWord s = .ok r) :
    r.2.length < s.length := by
  have hs := length_skipBlanks_le s
  unfold readWord at h
  split at h
  · rename_i heq
    have := length_readNumber?_lt heq
    split at h
    · simp only [Except.ok.injEq] at h
      simp only [← h]
      simp only at this
      omega
    · simp at h
  · simp at h
  · simp at h

namespace Decoder

def bool : Decoder Bool where
  read := readBool
  ofJson
    | .bool b => .ok b
    | json => .error (mismatchOf "a boolean" json)
  shortens := length_readBool_lt

def string : Decoder String where
  read := readString
  ofJson
    | .string s => .ok s
    | json => .error (mismatchOf "a string" json)
  shortens := length_readString_lt

/-- A number of 32 bits. -/
def word : Decoder UInt32 where
  read := readWord
  ofJson
    | .number n => wordOf n
    | json => .error (mismatchOf "u32" json)
  shortens := length_readWord_lt

end Decoder

/-! ### Values that may be absent -/

section
variable {α : Type}

def readOption (item : Decoder α) (s : List Char) : Reading (Option α) :=
  match skipBlanks s with
  | 'n' :: rest =>
    match keyword ['u', 'l', 'l'] rest with
    | .ok rest => .ok (none, rest)
    | .error fault => .error fault
  | _ =>
    match item.read s with
    | .ok (value, rest) => .ok (some value, rest)
    | .error fault => .error fault

theorem length_readOption_lt {item : Decoder α} {s : List Char} {r : Option α × List Char}
    (h : readOption item s = .ok r) : r.2.length < s.length := by
  have hs := length_skipBlanks_le s
  unfold readOption at h
  split at h
  · rename_i heq
    simp only [heq, List.length_cons] at hs
    split at h
    · rename_i hk
      have := length_keyword_le hk
      simp only [Except.ok.injEq] at h
      simp only [← h]
      omega
    · simp at h
  · split at h
    · rename_i hk
      have := item.shortens hk
      simp only [Except.ok.injEq] at h
      simp only [← h]
      exact this
    · simp at h

/-- A value that is absent where `null` stands. -/
def Decoder.option (item : Decoder α) : Decoder (Option α) where
  read := readOption item
  ofJson
    | .null => .ok none
    | json => (item.ofJson json).map some
  shortens := length_readOption_lt

/-! ### Lists -/

/-- The text of the next item of a list, or nothing at its end. -/
def nextItem (first : Bool) (s : List Char) : Except Fault (Option (List Char)) :=
  match skipBlanks s with
  | [] => .error (.at .endInList [])
  | c :: rest =>
    if c = ']' then .ok none
    else if first then .ok (some (c :: rest))
    else if c = ',' then
      match skipBlanks rest with
      | [] => .error (.at .endInValue [])
      | d :: after =>
        if d = ']' then .error (.at .trailingComma (d :: after)) else .ok (some (d :: after))
    else .error (.at .expectedListSeparator (c :: rest))

/-- The rest after the end of a list. -/
def endList (s : List Char) : Except Fault (List Char) :=
  match skipBlanks s with
  | [] => .error (.at .endInList [])
  | c :: rest =>
    if c = ']' then .ok rest
    else if c = ',' then
      let after := skipBlanks rest
      .error (.at (if after.head? = some ']' then .trailingComma else .trailingCharacters) after)
    else .error (.at .trailingCharacters (c :: rest))

/-- What follows the end of a list, or the comma or the place where the end was looked for. -/
def pastList (s : List Char) : List Char :=
  match skipBlanks s with
  | ']' :: rest => rest
  | ',' :: rest => skipBlanks rest
  | rest => rest

theorem length_nextItem_le {first : Bool} {s t : List Char} (h : nextItem first s = .ok (some t)) :
    t.length ≤ s.length := by
  have hs := length_skipBlanks_le s
  unfold nextItem at h
  split at h
  · simp at h
  · rename_i c rest heq
    have hr := length_skipBlanks_le rest
    simp only [heq, List.length_cons] at hs
    split at h
    · simp at h
    · split at h
      · simp only [Except.ok.injEq, Option.some.injEq] at h
        simp only [← h, List.length_cons]
        exact hs
      · split at h
        · split at h
          · simp at h
          · rename_i heq'
            simp only [heq', List.length_cons] at hr
            split at h
            · simp at h
            · simp only [Except.ok.injEq, Option.some.injEq] at h
              simp only [← h, List.length_cons]
              omega
        · simp at h

theorem length_endList_lt {s rest : List Char} (h : endList s = .ok rest) :
    rest.length < s.length := by
  have hs := length_skipBlanks_le s
  unfold endList at h
  split at h
  · simp at h
  · rename_i heq
    simp only [heq, List.length_cons] at hs
    split at h
    · simp only [Except.ok.injEq] at h
      rw [← h]
      omega
    · split at h <;> simp at h

/-- The items of a list up to and including its end. -/
def readItems (item : Decoder α) (first : Bool) (s : List Char) : Reading (List α) :=
  match h : nextItem first s with
  | .error fault => .error fault
  | .ok none =>
    match endList s with
    | .ok rest => .ok ([], rest)
    | .error fault => .error fault
  | .ok (some t) =>
    match h' : item.read t with
    | .error fault => .error fault
    | .ok (value, rest) =>
      have := length_nextItem_le h
      have := item.shortens h'
      match readItems item false rest with
      | .ok (values, rest) => .ok (value :: values, rest)
      | .error fault => .error fault
termination_by s.length
decreasing_by simp_all; omega

theorem length_readItems_lt {item : Decoder α} {first : Bool} {s : List Char}
    {r : List α × List Char} (h : readItems item first s = .ok r) : r.2.length < s.length := by
  fun_induction readItems item first s generalizing r with
  | case1 => simp at h
  | case2 first s hn rest he =>
    have := length_endList_lt he
    simp only [Except.ok.injEq] at h
    simp only [← h]
    exact this
  | case3 => simp at h
  | case4 => simp at h
  | case5 first s t hn value rest hv hle hlt values rest' hr ih =>
    have := ih hr
    simp only [Except.ok.injEq] at h
    simp only [← h]
    simp only at this hlt
    omega
  | case6 => simp at h

def readList (item : Decoder α) (s : List Char) : Reading (List α) :=
  match skipBlanks s with
  | '[' :: rest => readItems item true rest
  | rest => .error (mismatch "a sequence" rest)

theorem length_readList_lt {item : Decoder α} {s : List Char} {r : List α × List Char}
    (h : readList item s = .ok r) : r.2.length < s.length := by
  have hs := length_skipBlanks_le s
  unfold readList at h
  split at h
  · rename_i heq
    simp only [heq, List.length_cons] at hs
    have := length_readItems_lt h
    omega
  · simp at h

def Decoder.list (item : Decoder α) : Decoder (List α) where
  read := readList item
  ofJson
    | .array items => items.mapM item.ofJson
    | json => .error (mismatchOf "a sequence" json)
  shortens := length_readList_lt

/-! ### Members of an object -/

/-- The name at the front of a text, which must be a string. -/
def readName : List Char → Reading String
  | '"' :: rest =>
    match stringBody rest with
    | .ok (name, rest) => .ok (String.ofList name, rest)
    | .error fault => .error fault
  | rest => .error (.at .expectedKey rest)

/-- The name of the next member of an object and what follows it, or nothing and the rest after the
end of the object. -/
def nextName (first : Bool) (s : List Char) : Reading (Option String) :=
  match skipBlanks s with
  | [] => .error (.at .endInObject [])
  | c :: rest =>
    if c = '\x7d' then .ok (none, rest)
    else if first then
      match readName (c :: rest) with
      | .ok (name, rest) => .ok (some name, rest)
      | .error fault => .error fault
    else if c = ',' then
      match skipBlanks rest with
      | [] => .error (.at .endInValue [])
      | d :: after =>
        if d = '\x7d' then .error (.at .trailingComma (d :: after))
        else
          match readName (d :: after) with
          | .ok (name, rest) => .ok (some name, rest)
          | .error fault => .error fault
    else .error (.at .expectedObjectSeparator (c :: rest))

/-- What follows the end of an object, or the place where the end was looked for. -/
def pastObject (s : List Char) : List Char :=
  match skipBlanks s with
  | '\x7d' :: rest => rest
  | rest => rest

theorem length_readName_lt {s : List Char} {r : String × List Char} (h : readName s = .ok r) :
    r.2.length < s.length := by
  unfold readName at h
  split at h
  · split at h
    · rename_i hk
      have := length_stringBody_lt hk
      simp only [Except.ok.injEq] at h
      simp only [← h, List.length_cons]
      simp only at this
      omega
    · simp at h
  · simp at h

theorem length_nextName_lt {first : Bool} {s : List Char} {r : Option String × List Char}
    (h : nextName first s = .ok r) : r.2.length < s.length := by
  have hs := length_skipBlanks_le s
  unfold nextName at h
  split at h
  · simp at h
  · rename_i c rest heq
    have hr := length_skipBlanks_le rest
    simp only [heq, List.length_cons] at hs
    split at h
    · simp only [Except.ok.injEq] at h
      simp only [← h]
      omega
    · split at h
      · split at h
        · rename_i hk
          have := length_readName_lt hk
          simp only [Except.ok.injEq] at h
          simp only [← h]
          simp only [List.length_cons] at this
          omega
        · simp at h
      · split at h
        · split at h
          · simp at h
          · rename_i heq'
            simp only [heq', List.length_cons] at hr
            split at h
            · simp at h
            · split at h
              · rename_i hk
                have := length_readName_lt hk
                simp only [Except.ok.injEq] at h
                simp only [← h]
                simp only [List.length_cons] at this
                omega
              · simp at h
        · simp at h

/-! ### Maps -/

/-- The members of a map up to and including its end, each read by the decoder for its name. -/
def readMembers (item : String → Decoder α) (first : Bool) (s : List Char) :
    Reading (List (String × α)) :=
  match h : nextName first s with
  | .error fault => .error fault
  | .ok (none, rest) => .ok ([], rest)
  | .ok (some name, rest) =>
    match h' : colon rest with
    | .error fault => .error fault
    | .ok rest' =>
      match h'' : (item name).read rest' with
      | .error fault => .error fault
      | .ok (value, rest'') =>
        have := length_nextName_lt h
        have := length_colon_lt h'
        have := (item name).shortens h''
        match readMembers item false rest'' with
        | .ok (members, rest) => .ok ((name, value) :: members, rest)
        | .error fault => .error fault
termination_by s.length
decreasing_by simp_all; omega

theorem length_readMembers_lt {item : String → Decoder α} {first : Bool} {s : List Char}
    {r : List (String × α) × List Char} (h : readMembers item first s = .ok r) :
    r.2.length < s.length := by
  fun_induction readMembers item first s generalizing r with
  | case1 => simp at h
  | case2 first s rest hn =>
    have := length_nextName_lt hn
    simp only [Except.ok.injEq] at h
    simp only [← h]
    exact this
  | case3 => simp at h
  | case4 => simp at h
  | case5 first s name rest hn rest' hc value rest'' hv h1 h2 h3 members rest''' hr ih =>
    have := ih hr
    simp only [Except.ok.injEq] at h
    simp only [← h]
    simp only at this h1 h3
    omega
  | case6 => simp at h

def readMap (item : Decoder α) (s : List Char) : Reading (Keyed α) :=
  match skipBlanks s with
  | '\x7b' :: rest =>
    match readMembers (fun _ => item) true rest with
    | .ok (members, rest) => .ok (.ofEntries members, rest)
    | .error fault => .error fault
  | rest => .error (mismatch "a map" rest)

theorem length_readMap_lt {item : Decoder α} {s : List Char} {r : Keyed α × List Char}
    (h : readMap item s = .ok r) : r.2.length < s.length := by
  have hs := length_skipBlanks_le s
  unfold readMap at h
  split at h
  · rename_i heq
    simp only [heq, List.length_cons] at hs
    split at h
    · rename_i hm
      have := length_readMembers_lt hm
      simp only [Except.ok.injEq] at h
      simp only [← h]
      simp only at this
      omega
    · simp at h
  · simp at h

/-- A map; of members with one name the last one counts. -/
def Decoder.map (item : Decoder α) : Decoder (Keyed α) where
  read := readMap item
  ofJson
    | .object members =>
      (Keyed.ofEntries members).mapM fun (name, json) => (item.ofJson json).map fun value =>
        (name, value)
    | json => .error (mismatchOf "a map" json)
  shortens := length_readMap_lt

end

/-! ### Whole texts -/

/-- The value that a whole text holds. -/
def Decoder.parse {α : Type} (decoder : Decoder α) (text : String) : Except Rejection α :=
  let chars := text.toList
  match decoder.read chars with
  | .error fault => .error (fault.reject chars)
  | .ok (value, rest) =>
    match skipBlanks rest with
    | [] => .ok value
    | rest => .error ((Fault.at .trailingCharacters rest).reject chars)

end PackageReadme.Json
