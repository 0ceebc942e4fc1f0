/-! Sets of characters given by ascending ranges of code points. -/
namespace PackageReadme.Text

/-- Whether `n` lies in one of the ranges `lo ‥ hi`, which ascend. -/
def inRanges (n : Nat) : List (Nat × Nat) → Bool
  | [] => false
  | (lo, hi) :: rest => if n < lo then false else n ≤ hi || inRanges n rest

/-- Whether `n` lies in one of the ranges `lo, lo + step, ‥ hi`, which ascend. -/
def inSteppedRanges (n : Nat) : List (Nat × Nat × Nat) → Bool
  | [] => false
  | (lo, hi, step) :: rest =>
    if n < lo then false
    else (n ≤ hi && (n - lo) % step == 0) || inSteppedRanges n rest

end PackageReadme.Text
