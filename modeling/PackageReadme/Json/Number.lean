import PackageReadme.Json.Scan

/-! Numbers in a JSON text.

An integer that fits into 64 bits stays an integer. Any other number becomes a binary64 number: its
leading digits, as many as fit into 64 bits, are scaled by a power of ten. -/
namespace PackageReadme.Json

def digitValue (c : Char) : Nat :=
  c.toNat - 48

/-- The largest number that 64 bits hold. -/
def maxNatural : Nat := Nat.pow 2 64 - 1

/-- The largest exponent that is read; beyond it a number is zero or out of range. -/
def maxExponent : Nat := Nat.pow 2 31 - 1

/-- Appends digits to a number as long as it fits into 64 bits, and counts the digits that are
left. -/
def absorb (value : Nat) : List Char → Nat × Nat
  | [] => (value, 0)
  | c :: cs =>
    let next := value * 10 + digitValue c
    if next ≤ maxNatural then absorb next cs else (value, cs.length + 1)

/-! ### Scaling -/

/-- `10 ^ n` for `n ≤ 308`. -/
def powerOfTen (n : Nat) : Float :=
  Float.ofScientific 1 false n

/-- `value / 10 ^ n`, dividing by `10 ^ 308` as often as needed. -/
def scaleDown (value : Float) (n : Nat) : Float :=
  if n ≤ 308 || value == 0 then value / powerOfTen (min n 308)
  else scaleDown (value / powerOfTen 308) (n - 308)
termination_by n
decreasing_by simp_all; omega

/-- `significand · 10 ^ exponent` as a binary64 number, unless it is too large. -/
def scaled? (positive : Bool) (significand : Nat) (exponent : Int) : Option Number :=
  let value := significand.toUInt64.toFloat
  let signed (value : Float) : Option Number :=
    some (.binary64 (if positive then value else -value).toBits)
  if exponent < 0 then signed (scaleDown value exponent.natAbs)
  else if 308 < exponent then if significand = 0 then signed value else none
  else
    let scaled := value * powerOfTen exponent.natAbs
    if scaled.isInf then none else signed scaled

/-- A scaled number before `rest`, or the fault of one that is too large. -/
def scaledBefore (positive : Bool) (significand : Nat) (exponent : Int) (rest : List Char) :
    Reading Number :=
  match scaled? positive significand exponent with
  | some n => .ok (n, rest)
  | none => .error (.before .numberOutOfRange rest)

/-- An integer with its sign. Zero with a minus sign, and what does not fit into 64 bits, is
binary64. -/
def integer (positive : Bool) (value : Nat) : Number :=
  if positive then .natural value
  else if 1 ≤ value && value ≤ Nat.pow 2 63 then .negative value
  else .binary64 (-value.toUInt64.toFloat).toBits

/-! ### Reading -/

/-- The digits of an exponent, after those that make `value`: nothing if it passes the largest. -/
def exponentDigits (value : Nat) : List Char → Option Nat × List Char
  | [] => (some value, [])
  | c :: cs =>
    if c.isDigit then
      let next := value * 10 + digitValue c
      if next ≤ maxExponent then exponentDigits next cs else (none, cs)
    else (some value, c :: cs)

/-- The sign in front of an exponent: whether it is positive, and the rest. -/
def exponentSign : List Char → Bool × List Char
  | '+' :: rest => (true, rest)
  | '-' :: rest => (false, rest)
  | rest => (true, rest)

/-- The number whose exponent follows. -/
def withExponent (positive : Bool) (significand : Nat) (exponent : Int) (s : List Char) :
    Reading Number :=
  let (raises, s) := exponentSign s
  match s with
  | [] => .error (.before .endInValue [])
  | c :: rest =>
    if !c.isDigit then .error (.at .invalidNumber (c :: rest))
    else
      match exponentDigits 0 (c :: rest) with
      | (some n, rest) =>
        scaledBefore positive significand (if raises then exponent + n else exponent - n) rest
      | (none, rest) =>
        if significand != 0 && raises then .error (.before .numberOutOfRange rest)
        else scaledBefore positive 0 0 (rest.dropWhile Char.isDigit)

/-- The number whose whole digits are read, with `left` of them beyond 64 bits. -/
def afterWhole (positive : Bool) (significand left : Nat) : List Char → Reading Number
  | '.' :: rest =>
    let digits := rest.takeWhile Char.isDigit
    let after := rest.drop digits.length
    if digits.isEmpty then
      .error (.at (if rest.isEmpty then .endInValue else .invalidNumber) rest)
    else
      let (significand, skipped) := absorb significand digits
      let exponent := (left : Int) - ((digits.length : Int) - skipped)
      match after with
      | 'e' :: rest => withExponent positive significand exponent rest
      | 'E' :: rest => withExponent positive significand exponent rest
      | rest => scaledBefore positive significand exponent rest
  | 'e' :: rest => withExponent positive significand left rest
  | 'E' :: rest => withExponent positive significand left rest
  | rest =>
    if left = 0 then .ok (integer positive significand, rest)
    else scaledBefore positive significand left rest

/-- A number after its sign. -/
def unsigned (positive : Bool) : List Char → Reading Number
  | [] => .error (.before .endInValue [])
  | c :: rest =>
    if !c.isDigit then .error (.at .invalidNumber (c :: rest))
    else if c = '0' && rest.head?.any Char.isDigit then .error (.at .invalidNumber rest)
    else
      let whole := (c :: rest).takeWhile Char.isDigit
      let (significand, left) := absorb 0 whole
      afterWhole positive significand left ((c :: rest).drop whole.length)

/-! ### Skipping -/

/-- The rest after the digits of an exponent that nobody reads. -/
def skipExponent (s : List Char) : Except Fault (List Char) :=
  let (_, s) := exponentSign s
  match s with
  | [] => .error (.at .invalidNumber [])
  | c :: rest =>
    if c.isDigit then .ok (rest.dropWhile Char.isDigit) else .error (.at .invalidNumber (c :: rest))

/-- The rest after a number that nobody reads, which may be out of range. -/
def skipUnsigned : List Char → Except Fault (List Char)
  | [] => .error (.at .invalidNumber [])
  | c :: rest =>
    if !c.isDigit then .error (.at .invalidNumber (c :: rest))
    else if c = '0' && rest.head?.any Char.isDigit then .error (.at .invalidNumber rest)
    else
      match rest.dropWhile Char.isDigit with
      | '.' :: rest =>
        if rest.head?.any Char.isDigit then
          match rest.dropWhile Char.isDigit with
          | 'e' :: rest => skipExponent rest
          | 'E' :: rest => skipExponent rest
          | rest => .ok rest
        else .error (.at .invalidNumber rest)
      | 'e' :: rest => skipExponent rest
      | 'E' :: rest => skipExponent rest
      | rest => .ok rest

/-! ### Readers shorten the text -/

theorem length_dropWhile_le {p : Char → Bool} (s : List Char) :
    (s.dropWhile p).length ≤ s.length :=
  (List.dropWhile_sublist _).length_le

theorem length_exponentSign_le (s : List Char) : (exponentSign s).2.length ≤ s.length := by
  unfold exponentSign
  split <;> simp

theorem length_exponentDigits_le (value : Nat) (s : List Char) :
    (exponentDigits value s).2.length ≤ s.length := by
  fun_induction exponentDigits value s <;> grind

theorem eq_of_scaledBefore {positive : Bool} {significand : Nat} {exponent : Int} {s : List Char}
    {r : Number × List Char} (h : scaledBefore positive significand exponent s = .ok r) :
    r.2 = s := by
  unfold scaledBefore at h
  split at h <;> simp at h
  rw [← h]

theorem length_withExponent_le {positive : Bool} {significand : Nat} {exponent : Int}
    {s : List Char} {r : Number × List Char}
    (h : withExponent positive significand exponent s = .ok r) : r.2.length ≤ s.length := by
  unfold withExponent at h
  have hs := length_exponentSign_le s
  revert h hs
  generalize exponentSign s = signed
  obtain ⟨raises, t⟩ := signed
  intro h hs
  cases t with
  | nil => simp at h
  | cons c rest =>
    have hd := length_exponentDigits_le 0 (c :: rest)
    simp only at h
    split at h
    · simp at h
    · split at h
      · rename_i n rest' heq
        rw [heq] at hd
        rw [eq_of_scaledBefore h]
        exact Nat.le_trans hd hs
      · rename_i rest' heq
        rw [heq] at hd
        split at h
        · simp at h
        · rw [eq_of_scaledBefore h]
          exact Nat.le_trans (length_dropWhile_le _) (Nat.le_trans hd hs)

theorem length_afterWhole_le {positive : Bool} {significand left : Nat} {s : List Char}
    {r : Number × List Char} (h : afterWhole positive significand left s = .ok r) :
    r.2.length ≤ s.length := by
  have hdrop (rest : List Char) (n : Nat) : (rest.drop n).length ≤ rest.length := by
    simp
  unfold afterWhole at h
  split at h
  · rename_i rest
    have hd := hdrop rest (rest.takeWhile Char.isDigit).length
    simp only at h
    split at h
    · simp at h
    · split at h
      · rename_i heq
        have := length_withExponent_le h
        simp only [heq, List.length_cons] at hd ⊢
        omega
      · rename_i heq
        have := length_withExponent_le h
        simp only [heq, List.length_cons] at hd ⊢
        omega
      · rw [eq_of_scaledBefore h]
        simp only [List.length_cons]
        omega
  · have := length_withExponent_le h
    simp only [List.length_cons]
    omega
  · have := length_withExponent_le h
    simp only [List.length_cons]
    omega
  · split at h
    · simp only [Except.ok.injEq] at h
      simp [← h]
    · simp [eq_of_scaledBefore h]

theorem length_unsigned_lt {positive : Bool} {s : List Char} {r : Number × List Char}
    (h : unsigned positive s = .ok r) : r.2.length < s.length := by
  cases s with
  | nil => simp [unsigned] at h
  | cons c rest =>
    simp only [unsigned] at h
    split at h
    · simp at h
    · split at h
      · simp at h
      · rename_i hc _
        have hle := length_afterWhole_le h
        have hc : c.isDigit = true := by simpa using hc
        simp only [List.takeWhile_cons, hc, if_true, List.length_cons, List.length_drop] at hle ⊢
        omega

theorem length_skipExponent_le {s rest : List Char} (h : skipExponent s = .ok rest) :
    rest.length ≤ s.length := by
  unfold skipExponent at h
  have hs := length_exponentSign_le s
  revert h hs
  generalize exponentSign s = signed
  obtain ⟨raises, t⟩ := signed
  intro h hs
  cases t with
  | nil => simp at h
  | cons c tail =>
    simp only at h
    split at h
    · simp only [Except.ok.injEq] at h
      have := length_dropWhile_le (p := Char.isDigit) tail
      simp only [List.length_cons] at hs
      rw [← h]
      omega
    · simp at h

theorem length_skipUnsigned_lt {s rest : List Char} (h : skipUnsigned s = .ok rest) :
    rest.length < s.length := by
  cases s with
  | nil => simp [skipUnsigned] at h
  | cons c tail =>
    have hle := length_dropWhile_le (p := Char.isDigit) tail
    simp only [skipUnsigned] at h
    split at h
    · simp at h
    · split at h
      · simp at h
      · split at h
        · rename_i t heq
          simp only [heq, List.length_cons] at hle
          have ht := length_dropWhile_le (p := Char.isDigit) t
          split at h
          · split at h
            · rename_i heq'
              simp only [heq', List.length_cons] at ht
              have := length_skipExponent_le h
              simp only [List.length_cons]
              omega
            · rename_i heq'
              simp only [heq', List.length_cons] at ht
              have := length_skipExponent_le h
              simp only [List.length_cons]
              omega
            · simp only [Except.ok.injEq] at h
              simp only [List.length_cons, ← h]
              omega
          · simp at h
        · rename_i heq
          simp only [heq, List.length_cons] at hle
          have := length_skipExponent_le h
          simp only [List.length_cons]
          omega
        · rename_i heq
          simp only [heq, List.length_cons] at hle
          have := length_skipExponent_le h
          simp only [List.length_cons]
          omega
        · simp only [Except.ok.injEq] at h
          simp only [List.length_cons, ← h]
          omega

end PackageReadme.Json
