/-! The fewest decimal digits that name a binary64 number.

A finite number is `m · 2 ^ q`. The decimals that round to it fill an interval around it, which
holds its ends if `m` is even. On the grids of one, two, ‥ seventeen significant digits the two
neighbours of the number are tried in turn, and the first grid on which one of them lies in the
interval gives the digits. -/
namespace PackageReadme.Decimal

/-- A nonnegative decimal number, `digits · 10 ^ exponent`. -/
structure Scaled where
  digits : Nat
  exponent : Int
  deriving DecidableEq, Repr

/-- A binary64 number, taken apart. -/
inductive Binary64 where
  | finite (negative : Bool) (mantissa : Nat) (exponent : Int)
  | infinite (negative : Bool)
  | notANumber
  deriving DecidableEq, Repr

def Binary64.ofBits (bits : UInt64) : Binary64 :=
  let word := bits.toNat
  let negative := word / Nat.pow 2 63 == 1
  let biased : Nat := word / Nat.pow 2 52 % Nat.pow 2 11
  let fraction := word % Nat.pow 2 52
  if biased = 2047 then
    if fraction = 0 then .infinite negative else .notANumber
  else if biased = 0 then .finite negative fraction (-1074)
  else .finite negative (Nat.pow 2 52 + fraction) ((biased : Int) - 1075)

/-- Compares `a · 10 ^ i` with `b · 2 ^ j`. -/
def compareScaled (a : Nat) (i : Int) (b : Nat) (j : Int) : Ordering :=
  compare (a * Nat.pow 10 i.toNat * Nat.pow 2 (-j).toNat)
    (b * Nat.pow 2 j.toNat * Nat.pow 10 (-i).toNat)

/-- `⌊m · 2 ^ q / 10 ^ e⌋`. -/
def scaledFloor (m : Nat) (q e : Int) : Nat :=
  (m * Nat.pow 2 q.toNat * Nat.pow 10 (-e).toNat) / (Nat.pow 2 (-q).toNat * Nat.pow 10 e.toNat)

/-- Whether `d · 10 ^ e` rounds to `m · 2 ^ q`. Below a power of two the numbers lie twice as
dense. -/
def roundsTo (m : Nat) (q : Int) (d : Nat) (e : Int) : Bool :=
  let below := if m = Nat.pow 2 52 && q != -1074 then 1 else 2
  let ordLow := compareScaled d e (4 * m - below) (q - 2)
  let ordHigh := compareScaled d e (4 * m + 2) (q - 2)
  (ordLow == .gt && ordHigh == .lt) || (m % 2 == 0 && (ordLow == .eq || ordHigh == .eq))

/-- Whether `d + 1` is nearer to `m · 2 ^ q` than `d` on the grid `10 ^ e`; a tie goes to the even
one. -/
def upperIsNearer (m : Nat) (q : Int) (d : Nat) (e : Int) : Bool :=
  match compareScaled (2 * d + 1) e (2 * m) q with
  | .lt => true
  | .gt => false
  | .eq => d % 2 == 1

/-- The neighbour of `m · 2 ^ q` on the grid `10 ^ e` that rounds to it, the nearer one if both
do. -/
def onGrid? (m : Nat) (q e : Int) : Option Scaled :=
  let lower := scaledFloor m q e
  match roundsTo m q lower e, roundsTo m q (lower + 1) e with
  | true, true => some ⟨if upperIsNearer m q lower e then lower + 1 else lower, e⟩
  | true, false => some ⟨lower, e⟩
  | false, true => some ⟨lower + 1, e⟩
  | false, false => none

/-- The exponent of the leading decimal digit of `m · 2 ^ q`, which is positive. -/
def leadingExponent (m : Nat) (q : Int) : Int :=
  let candidates := (List.range 634).map fun (i : Nat) => (308 : Int) - i
  (candidates.find? fun e => compareScaled 1 e m q != .gt).getD 0

/-- The decimal number without the zeros at the end of its digits. -/
def withoutZeros (digits : Nat) (exponent : Int) : Scaled :=
  if digits ≠ 0 ∧ digits % 10 = 0 then withoutZeros (digits / 10) (exponent + 1)
  else ⟨digits, exponent⟩
termination_by digits
decreasing_by omega

/-- The fewest digits that round to `m · 2 ^ q`. -/
def shortest (m : Nat) (q : Int) : Scaled :=
  if m = 0 then ⟨0, 0⟩
  else
    let leading := leadingExponent m q
    let grids := (List.range 17).map fun (i : Nat) => leading - i
    let found := (grids.findSome? (onGrid? m q)).getD ⟨m, 0⟩
    withoutZeros found.digits found.exponent

/-! ### Texts of numbers -/

/-- How a number is written: for which exponents of its leading digit in plain positions, and
whether a whole number keeps a fraction of zero. -/
structure Style where
  positional : Int → Bool
  wholeFraction : Bool

/-- Positions for leading exponents from -5 to 15, else an exponent with a sign. Whole numbers keep
`.0`. -/
def Style.inJson : Style :=
  ⟨fun e => -5 ≤ e && e ≤ 15, true⟩

/-- Positions always, and whole numbers without a fraction. -/
def Style.plain : Style :=
  ⟨fun _ => true, false⟩

def zeros (n : Nat) : List Char :=
  List.replicate n '0'

/-- The exponent mark, its sign and its digits. -/
def exponentText (e : Int) : List Char :=
  ['e', if e < 0 then '-' else '+'] ++ Nat.toDigits 10 e.natAbs

def Style.decimal (style : Style) (d : Scaled) : List Char :=
  let digits := Nat.toDigits 10 d.digits
  let count := digits.length
  let leading := d.exponent + (count : Int) - 1
  if style.positional leading then
    if 0 ≤ d.exponent then
      digits ++ zeros d.exponent.toNat ++ (if style.wholeFraction then ['.', '0'] else [])
    else if 0 ≤ leading then
      let whole := (leading + 1).toNat
      digits.take whole ++ ['.'] ++ digits.drop whole
    else ['0', '.'] ++ zeros (-leading - 1).toNat ++ digits
  else
    digits.take 1 ++ (if count = 1 then [] else '.' :: digits.drop 1) ++ exponentText leading

/-- The text of a binary64 number. -/
def Style.text (style : Style) (bits : UInt64) : String :=
  match Binary64.ofBits bits with
  | .notANumber => "NaN"
  | .infinite negative => if negative then "-inf" else "inf"
  | .finite negative m q =>
    String.ofList ((if negative then ['-'] else []) ++ style.decimal (shortest m q))

end PackageReadme.Decimal
