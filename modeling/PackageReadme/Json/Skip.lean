import PackageReadme.Json.Number

/-! Values that nobody reads.

They may nest to any depth, so the containers that are open are kept in a list. A skipped value must
be well formed, but its numbers may be out of range and its strings may hold lone surrogates. -/
namespace PackageReadme.Json

/-- A container that is open. -/
inductive Container where
  | list
  | object
  deriving DecidableEq, Repr

/-- Whether a character closes a container. -/
def Container.closes (container : Container) (c : Char) : Bool :=
  match container with
  | .list => c == ']'
  | .object => c == '\x7d'

/-- The fault of a text that ends inside a container. -/
def Container.ended : Container → Fault
  | .list => .at .endInList []
  | .object => .at .endInObject []

/-- The fault of something else than a comma or the end of a container. -/
def Container.unseparated (container : Container) (rest : List Char) : Fault :=
  .at (match container with
    | .list => .expectedListSeparator
    | .object => .expectedObjectSeparator) rest

/-- The rest after a colon. -/
def colon (s : List Char) : Except Fault (List Char) :=
  match skipBlanks s with
  | ':' :: rest => .ok rest
  | [] => .error (.at .endInObject [])
  | rest => .error (.at .expectedColon rest)

/-- The rest after the name of a member and its colon. -/
def skipName (s : List Char) : Except Fault (List Char) :=
  match skipBlanks s with
  | '"' :: rest =>
    match skipString rest with
    | .ok rest => colon rest
    | .error fault => .error fault
  | [] => .error (.at .endInObject [])
  | rest => .error (.at .expectedKey rest)

/-- What stands in front of a value of a container: in an object, its name. -/
def Container.skipLabel : Container → List Char → Except Fault (List Char)
  | .list, s => .ok s
  | .object, s => skipName s

/-- What a value starts with: a scalar, with the rest after it, or an opening bracket. -/
inductive Opening where
  | scalar (rest : List Char)
  | container (container : Container) (rest : List Char)

/-- Lifts the rest after a scalar. -/
def Opening.ofScalar : Except Fault (List Char) → Except Fault Opening
  | .ok rest => .ok (.scalar rest)
  | .error fault => .error fault

def opening (s : List Char) : Except Fault Opening :=
  match skipBlanks s with
  | [] => .error (.at .endInValue [])
  | 'n' :: rest => Opening.ofScalar (keyword ['u', 'l', 'l'] rest)
  | 't' :: rest => Opening.ofScalar (keyword ['r', 'u', 'e'] rest)
  | 'f' :: rest => Opening.ofScalar (keyword ['a', 'l', 's', 'e'] rest)
  | '-' :: rest => Opening.ofScalar (skipUnsigned rest)
  | '"' :: rest => Opening.ofScalar (skipString rest)
  | '[' :: rest => .ok (.container .list rest)
  | '\x7b' :: rest => .ok (.container .object rest)
  | c :: rest =>
    if c.isDigit then Opening.ofScalar (skipUnsigned (c :: rest))
    else .error (.at .expectedValue (c :: rest))

/-! ### Readers shorten the text -/

theorem length_colon_lt {s rest : List Char} (h : colon s = .ok rest) : rest.length < s.length := by
  have hs := length_skipBlanks_le s
  unfold colon at h
  split at h <;> simp at h
  rename_i heq
  simp only [heq, List.length_cons] at hs
  rw [← h]
  omega

theorem length_skipName_lt {s rest : List Char} (h : skipName s = .ok rest) :
    rest.length < s.length := by
  have hs := length_skipBlanks_le s
  unfold skipName at h
  split at h
  · rename_i heq
    simp only [heq, List.length_cons] at hs
    split at h
    · rename_i hstr
      have := length_skipString_lt hstr
      have := length_colon_lt h
      omega
    · simp at h
  · simp at h
  · simp at h

theorem length_skipLabel_le {container : Container} {s rest : List Char}
    (h : container.skipLabel s = .ok rest) : rest.length ≤ s.length := by
  cases container with
  | list => simp_all [Container.skipLabel]
  | object => exact Nat.le_of_lt (length_skipName_lt h)

theorem Opening.ofScalar_eq_ok {reading : Except Fault (List Char)} {o : Opening}
    (h : Opening.ofScalar reading = .ok o) : ∃ rest, o = .scalar rest ∧ reading = .ok rest := by
  cases reading with
  | error fault => simp [Opening.ofScalar] at h
  | ok rest =>
    simp only [Opening.ofScalar, Except.ok.injEq] at h
    exact ⟨rest, h.symm, rfl⟩

theorem length_scalar_lt {s rest : List Char} (h : opening s = .ok (.scalar rest)) :
    rest.length < s.length := by
  have hs := length_skipBlanks_le s
  unfold opening at h
  split at h <;> rename_i heq <;> simp only [heq, List.length_cons] at hs
  · simp at h
  all_goals try (simp at h)
  · obtain ⟨r, hr, hk⟩ := Opening.ofScalar_eq_ok h
    cases hr
    have := length_keyword_le hk
    omega
  · obtain ⟨r, hr, hk⟩ := Opening.ofScalar_eq_ok h
    cases hr
    have := length_keyword_le hk
    omega
  · obtain ⟨r, hr, hk⟩ := Opening.ofScalar_eq_ok h
    cases hr
    have := length_keyword_le hk
    omega
  · obtain ⟨r, hr, hk⟩ := Opening.ofScalar_eq_ok h
    cases hr
    have := length_skipUnsigned_lt hk
    omega
  · obtain ⟨r, hr, hk⟩ := Opening.ofScalar_eq_ok h
    cases hr
    have := length_skipString_lt hk
    omega
  · split at h
    · obtain ⟨r, hr, hk⟩ := Opening.ofScalar_eq_ok h
      cases hr
      have := length_skipUnsigned_lt hk
      simp only [List.length_cons] at this
      omega
    · simp at h

theorem length_container_lt {s rest : List Char} {container : Container}
    (h : opening s = .ok (.container container rest)) : rest.length < s.length := by
  have hs := length_skipBlanks_le s
  unfold opening at h
  split at h <;> rename_i heq <;> simp only [heq, List.length_cons] at hs
  · simp at h
  all_goals try (obtain ⟨r, hr, -⟩ := Opening.ofScalar_eq_ok h; cases hr)
  · simp only [Except.ok.injEq, Opening.container.injEq] at h
    rw [← h.2]
    omega
  · simp only [Except.ok.injEq, Opening.container.injEq] at h
    rw [← h.2]
    omega
  · split at h
    · obtain ⟨r, hr, -⟩ := Opening.ofScalar_eq_ok h
      cases hr
    · simp at h

/-! ### Skipping -/

mutual

/-- The rest after a value and after the containers that are open around it, innermost first. -/
def skipInside (outer : List Container) (s : List Char) : Except Fault (List Char) :=
  match h : opening s with
  | .error fault => .error fault
  | .ok (.scalar rest) =>
    have := length_scalar_lt h
    skipClosing outer rest
  | .ok (.container container rest) =>
    have := length_container_lt h
    match skipBlanks rest with
    | [] => .error container.ended
    | c :: _ =>
      if container.closes c then skipClosing (container :: outer) rest
      else skipNext container outer rest
termination_by 3 * s.length

/-- The rest after a value of `container` with what labels it, and after all that is open. -/
def skipNext (container : Container) (outer : List Container) (s : List Char) :
    Except Fault (List Char) :=
  match h : container.skipLabel s with
  | .error fault => .error fault
  | .ok rest =>
    have := length_skipLabel_le h
    skipInside (container :: outer) rest
termination_by 3 * s.length + 1

/-- The rest after the containers that are open, behind a value of the innermost. -/
def skipClosing (outer : List Container) (s : List Char) : Except Fault (List Char) :=
  match outer with
  | [] => .ok s
  | container :: outer =>
    match h : skipBlanks s with
    | [] => .error container.ended
    | c :: rest =>
      have : rest.length < s.length := by
        have := length_skipBlanks_le s
        simp only [h, List.length_cons] at this
        omega
      if c = ',' then skipNext container outer rest
      else if container.closes c then skipClosing outer rest
      else .error (container.unseparated (c :: rest))
termination_by 3 * s.length + 2

end

/-- The rest after a value. -/
def skipValue (s : List Char) : Except Fault (List Char) :=
  skipInside [] s

mutual

theorem length_skipInside_lt {outer : List Container} {s rest : List Char}
    (h : skipInside outer s = .ok rest) : rest.length < s.length := by
  unfold skipInside at h
  split at h
  · simp at h
  · rename_i t ho
    have := length_scalar_lt ho
    have := length_skipClosing_le h
    omega
  · rename_i t ho
    have := length_container_lt ho
    split at h
    · simp at h
    · split at h
      · have := length_skipClosing_le h
        omega
      · have := length_skipNext_lt h
        omega
termination_by 3 * s.length

theorem length_skipNext_lt {container : Container} {outer : List Container} {s rest : List Char}
    (h : skipNext container outer s = .ok rest) : rest.length < s.length := by
  unfold skipNext at h
  split at h
  · simp at h
  · rename_i t hl
    have := length_skipLabel_le hl
    have := length_skipInside_lt h
    omega
termination_by 3 * s.length + 1

theorem length_skipClosing_le {outer : List Container} {s rest : List Char}
    (h : skipClosing outer s = .ok rest) : rest.length ≤ s.length := by
  unfold skipClosing at h
  split at h
  · simp_all
  · split at h
    · simp at h
    · rename_i c t hb
      have : t.length < s.length := by
        have := length_skipBlanks_le s
        simp only [hb, List.length_cons] at this
        omega
      split at h
      · have := length_skipNext_lt h
        omega
      · split at h
        · have := length_skipClosing_le h
          omega
        · simp at h
termination_by 3 * s.length + 2

end

theorem length_skipValue_lt {s rest : List Char} (h : skipValue s = .ok rest) :
    rest.length < s.length :=
  length_skipInside_lt h

end PackageReadme.Json
