import PackageReadme.Json.Fault
import PackageReadme.Text.Bytes
import PackageReadme.Text.Digits

/-! The smallest parts of a JSON text: blanks, keywords and strings.

Every reader takes a text and gives back what follows the part that it read. -/
namespace PackageReadme.Json

/-- What a reader gives: a value and the rest of the text, or a fault. -/
abbrev Reading (α : Type) := Except Fault (α × List Char)

def isBlankChar (c : Char) : Bool :=
  c == ' ' || c == '\n' || c == '\t' || c == '\r'

def skipBlanks (s : List Char) : List Char :=
  s.dropWhile isBlankChar

theorem length_skipBlanks_le (s : List Char) : (skipBlanks s).length ≤ s.length :=
  (List.dropWhile_sublist _).length_le

/-- The rest after the letters of a keyword. -/
def keyword : (letters text : List Char) → Except Fault (List Char)
  | [], s => .ok s
  | _ :: _, [] => .error (.before .endInValue [])
  | a :: as, c :: cs => if a = c then keyword as cs else .error (.at .expectedIdent (c :: cs))

/-! ### Strings -/

/-- The value of four hexadecimal digits. -/
def hexUnit? (a b c d : Char) : Option Nat :=
  Text.hexadecimal? [a, b, c, d]

/-- The fault of four bytes that are not hexadecimal digits, or of fewer bytes than four. -/
def hexFault (rest : List Char) : Fault :=
  if 4 ≤ Text.byteSize rest then ⟨.invalidEscape, ⟨rest, 4⟩⟩ else .before .endInString []

/-- The character that a letter after a backslash stands for. -/
def escapeLetter? (c : Char) : Option Char :=
  if c = '"' then some '"'
  else if c = '\\' then some '\\'
  else if c = '/' then some '/'
  else if c = 'b' then some '\x08'
  else if c = 'f' then some '\x0c'
  else if c = 'n' then some '\n'
  else if c = 'r' then some '\r'
  else if c = 't' then some '\t'
  else none

def isHighSurrogate (unit : Nat) : Bool :=
  0xD800 ≤ unit && unit ≤ 0xDBFF

def isLowSurrogate (unit : Nat) : Bool :=
  0xDC00 ≤ unit && unit ≤ 0xDFFF

/-- The character of two surrogates. -/
def surrogatePair (high low : Nat) : Char :=
  Char.ofNat ((high - 0xD800) * 0x400 + (low - 0xDC00) + 0x10000)

/-- Puts a character in front of a string that is being read. -/
def consChar (c : Char) : Reading (List Char) → Reading (List Char)
  | .ok (cs, rest) => .ok (c :: cs, rest)
  | .error fault => .error fault

/-- The characters of a string up to its closing quotation mark. Surrogates must come in pairs. -/
def stringBody : List Char → Reading (List Char)
  | [] => .error (.before .endInString [])
  | '"' :: rest => .ok ([], rest)
  | ['\\'] => .error (.before .endInString [])
  | '\\' :: 'u' :: a :: b :: c :: d :: rest =>
    match hexUnit? a b c d with
    | none => .error (hexFault (a :: b :: c :: d :: rest))
    | some unit =>
      if isLowSurrogate unit then .error (.before .loneSurrogate rest)
      else if !isHighSurrogate unit then consChar (Char.ofNat unit) (stringBody rest)
      else
        match rest with
        | '\\' :: 'u' :: e :: f :: g :: h :: after =>
          match hexUnit? e f g h with
          | none => .error (hexFault (e :: f :: g :: h :: after))
          | some low =>
            if isLowSurrogate low then consChar (surrogatePair unit low) (stringBody after)
            else .error (.before .loneSurrogate after)
        | '\\' :: 'u' :: short => .error (hexFault short)
        | ['\\'] => .error (.before .endInString [])
        | '\\' :: other => .error (.at .brokenPair other)
        | [] => .error (.before .endInString [])
        | other => .error (.at .brokenPair other)
  | '\\' :: 'u' :: short => .error (hexFault short)
  | '\\' :: c :: rest =>
    match escapeLetter? c with
    | some meant => consChar meant (stringBody rest)
    | none => .error (.at .invalidEscape (c :: rest))
  | c :: rest =>
    if c.toNat < 32 then .error (.before .controlCharacter rest) else consChar c (stringBody rest)

/-- The rest after a string that nobody reads. Its escapes must be well formed, but surrogates need
not come in pairs. -/
def skipString : List Char → Except Fault (List Char)
  | [] => .error (.before .endInString [])
  | '"' :: rest => .ok rest
  | ['\\'] => .error (.before .endInString [])
  | '\\' :: 'u' :: a :: b :: c :: d :: rest =>
    match hexUnit? a b c d with
    | none => .error (hexFault (a :: b :: c :: d :: rest))
    | some _ => skipString rest
  | '\\' :: 'u' :: short => .error (hexFault short)
  | '\\' :: c :: rest =>
    match escapeLetter? c with
    | some _ => skipString rest
    | none => .error (.at .invalidEscape (c :: rest))
  | c :: rest =>
    if c.toNat < 32 then .error (.before .controlCharacter (c :: rest)) else skipString rest

/-! ### Readers shorten the text -/

theorem length_keyword_le {letters s rest : List Char} (h : keyword letters s = .ok rest) :
    rest.length ≤ s.length := by
  induction letters generalizing s with
  | nil => simp_all [keyword]
  | cons a as ih =>
    cases s with
    | nil => simp [keyword] at h
    | cons c cs =>
      simp only [keyword] at h
      split at h
      · have := ih h
        simp only [List.length_cons]
        omega
      · simp at h

theorem consChar_eq_ok {c : Char} {reading : Reading (List Char)} {r : List Char × List Char}
    (h : consChar c reading = .ok r) : ∃ cs, reading = .ok (cs, r.2) := by
  cases reading with
  | error fault => simp [consChar] at h
  | ok q =>
    obtain ⟨cs, rest⟩ := q
    simp only [consChar, Except.ok.injEq] at h
    exact ⟨cs, by rw [← h]⟩

theorem length_stringBody_lt {s : List Char} {r : List Char × List Char}
    (h : stringBody s = .ok r) : r.2.length < s.length := by
  fun_induction stringBody s generalizing r <;> try (simp at h; done)
  all_goals grind [consChar_eq_ok, List.length_cons]

theorem length_skipString_lt {s rest : List Char} (h : skipString s = .ok rest) :
    rest.length < s.length := by
  fun_induction skipString s <;> grind [List.length_cons]

end PackageReadme.Json
