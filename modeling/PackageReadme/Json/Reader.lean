import PackageReadme.Json.Decoder

/-! Reading any JSON value.

Containers may lie in one another up to a limit. An object keeps its members as they stand. Members
of certain names can be held to whole numbers, so that one of another kind is refused where it
stands. -/
namespace PackageReadme.Json

/-- The value of the scalar at the front of a text, if one is there. -/
def readScalar? : List Char → Option (Reading Json)
  | 'n' :: rest => some ((keyword ['u', 'l', 'l'] rest).map (Json.null, ·))
  | 't' :: rest => some ((keyword ['r', 'u', 'e'] rest).map (Json.bool true, ·))
  | 'f' :: rest => some ((keyword ['a', 'l', 's', 'e'] rest).map (Json.bool false, ·))
  | '"' :: rest => some ((stringBody rest).map fun (s, rest) => (.string (String.ofList s), rest))
  | s => (readNumber? s).map (·.map fun (n, rest) => (.number n, rest))

theorem length_readScalar?_lt {s : List Char} {r : Json × List Char}
    (h : readScalar? s = some (.ok r)) : r.2.length < s.length := by
  unfold readScalar? at h
  split at h
  · rename_i rest
    cases hk : keyword ['u', 'l', 'l'] rest with
    | error => simp [hk, Except.map] at h
    | ok t =>
      have := length_keyword_le hk
      simp only [hk, Except.map, Option.some.injEq, Except.ok.injEq] at h
      simp only [← h, List.length_cons]
      omega
  · rename_i rest
    cases hk : keyword ['r', 'u', 'e'] rest with
    | error => simp [hk, Except.map] at h
    | ok t =>
      have := length_keyword_le hk
      simp only [hk, Except.map, Option.some.injEq, Except.ok.injEq] at h
      simp only [← h, List.length_cons]
      omega
  · rename_i rest
    cases hk : keyword ['a', 'l', 's', 'e'] rest with
    | error => simp [hk, Except.map] at h
    | ok t =>
      have := length_keyword_le hk
      simp only [hk, Except.map, Option.some.injEq, Except.ok.injEq] at h
      simp only [← h, List.length_cons]
      omega
  · rename_i rest
    cases hk : stringBody rest with
    | error => simp [hk, Except.map] at h
    | ok t =>
      have := length_stringBody_lt hk
      simp only [hk, Except.map, Option.some.injEq, Except.ok.injEq] at h
      simp only [← h, List.length_cons]
      omega
  · cases hk : readNumber? s with
    | none => simp [hk] at h
    | some reading =>
      cases reading with
      | error => simp [hk, Except.map] at h
      | ok t =>
        have := length_readNumber?_lt hk
        simp only [hk, Option.map_some, Except.map, Option.some.injEq, Except.ok.injEq] at h
        simp only [← h]
        exact this

/-! ### Whole numbers -/

/-- What is said to be expected where a whole number has to stand. -/
def markTitle : String := "a 64-bit metadata id integer"

/-- The fault of a value that is no number where a whole number has to stand. -/
def markFault (depth : Nat) : List Char → Fault
  | '[' :: rest =>
    if depth = 0 then .at .tooDeep ('[' :: rest)
    else .before (.invalidType .list markTitle) (pastList rest)
  | '\x7b' :: rest =>
    if depth = 0 then .at .tooDeep ('\x7b' :: rest)
    else .before (.invalidType .map markTitle) (pastObject rest)
  | s => mismatch markTitle s

def readMark (depth : Nat) (s : List Char) : Reading Json :=
  match readNumber? (skipBlanks s) with
  | some (.ok (.natural n, rest)) => .ok (.nat n, rest)
  | some (.ok (n, rest)) => .error (.before (.invalidType (.number n) markTitle) rest)
  | some (.error fault) => .error fault
  | none => .error (markFault depth (skipBlanks s))

theorem length_readMark_lt {depth : Nat} {s : List Char} {r : Json × List Char}
    (h : readMark depth s = .ok r) : r.2.length < s.length := by
  have hs := length_skipBlanks_le s
  unfold readMark at h
  split at h
  · rename_i heq
    have := length_readNumber?_lt heq
    simp only [Except.ok.injEq] at h
    simp only [← h]
    simp only at this
    omega
  · simp at h
  · simp at h
  · simp at h

/-- A whole number. -/
def Decoder.mark (depth : Nat) : Decoder Json where
  read := readMark depth
  ofJson
    | .number (.natural n) => .ok (.nat n)
    | json => .error (mismatchOf markTitle json)
  shortens := length_readMark_lt

/-! ### Any value -/

/-- The value at the front of a text, with at most so many containers in one another. Members whose
names satisfy `isMark` are whole numbers. -/
def Decoder.marked (isMark : String → Bool) : (depth : Nat) → Decoder Json
  | 0 =>
    { read := fun s =>
        match readScalar? (skipBlanks s) with
        | some reading => reading
        | none =>
          match skipBlanks s with
          | [] => .error (.at .endInValue [])
          | c :: rest =>
            .error (.at (if c = '[' ∨ c = '\x7b' then .tooDeep else .expectedValue) (c :: rest))
      ofJson := .ok
      shortens := by
        intro s r h
        have hs := length_skipBlanks_le s
        split at h
        · rename_i hr
          subst h
          have := length_readScalar?_lt hr
          omega
        · split at h <;> simp at h }
  | depth + 1 =>
    { read := fun s =>
        match readScalar? (skipBlanks s) with
        | some reading => reading
        | none =>
          match skipBlanks s with
          | [] => .error (.at .endInValue [])
          | c :: rest =>
            if c = '[' then
              match readItems (Decoder.marked isMark depth) true rest with
              | .ok (items, rest) => .ok (.array items, rest)
              | .error fault => .error fault
            else if c = '\x7b' then
              match readMembers
                (fun name => if isMark name then .mark depth else Decoder.marked isMark depth)
                true rest with
              | .ok (members, rest) => .ok (.object members, rest)
              | .error fault => .error fault
            else .error (.at .expectedValue (c :: rest))
      ofJson := .ok
      shortens := by
        intro s r h
        have hs := length_skipBlanks_le s
        split at h
        · rename_i hr
          subst h
          have := length_readScalar?_lt hr
          omega
        · split at h
          · simp at h
          · rename_i heq
            simp only [heq, List.length_cons] at hs
            split at h
            · split at h
              · rename_i hi
                have := length_readItems_lt hi
                simp only [Except.ok.injEq] at h
                simp only [← h]
                simp only at this
                omega
              · simp at h
            · split at h
              · split at h
                · rename_i hm
                  have := length_readMembers_lt hm
                  simp only [Except.ok.injEq] at h
                  simp only [← h]
                  simp only at this
                  omega
                · simp at h
              · simp at h }

/-- The value at the front of a text, with at most so many containers in one another. -/
def Decoder.any : (depth : Nat) → Decoder Json :=
  Decoder.marked fun _ => false

/-- How many containers may lie in one another. -/
def depthLimit : Nat := 127

/-- The value that a whole text holds. -/
def parse (text : String) : Except Rejection Json :=
  (Decoder.any depthLimit).parse text

end PackageReadme.Json
