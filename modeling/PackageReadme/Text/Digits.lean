/-! Numbers from their digits, and characters from their numbers. -/
namespace PackageReadme.Text

/-- The value of a hexadecimal digit. -/
def hexDigit? (c : Char) : Option Nat :=
  if '0' ≤ c && c ≤ '9' then some (c.toNat - 48)
  else if 'a' ≤ c && c ≤ 'f' then some (c.toNat - 87)
  else if 'A' ≤ c && c ≤ 'F' then some (c.toNat - 55)
  else none

/-- The number that hexadecimal digits are for, if there is nothing else. -/
def hexadecimal? (s : List Char) : Option Nat :=
  (s.mapM hexDigit?).map fun digits => digits.foldl (fun n digit => n * 16 + digit) 0

/-- The number that decimal digits are for, if there is at least one and nothing else. -/
def decimal? (s : List Char) : Option Nat :=
  if s.isEmpty || !s.all Char.isDigit then none
  else some (s.foldl (fun n c => n * 10 + (c.toNat - 48)) 0)

/-- The number that decimal digits are for, with or without a plus sign. -/
def positive? : List Char → Option Nat
  | '+' :: rest => decimal? rest
  | rest => decimal? rest

/-- The character of a code point. -/
def codePoint? (n : Nat) : Option Char :=
  if h : n.isValidChar then some (Char.ofNatAux n h) else none

end PackageReadme.Text
