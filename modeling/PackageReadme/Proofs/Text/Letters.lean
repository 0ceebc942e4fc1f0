import Mathlib.Data.List.Basic
import PackageReadme.Text.Letter

/-! Upper-case letters are letters.

The two are told apart by tables of ranges. The ranges of letters ascend, so that a code point is
found if one of them holds it (`inRanges_of_holdsAll`). A range of upper-case letters goes in steps
and mostly lies in one range of letters; where other characters lie between its members, each of
them does. -/
namespace PackageReadme.Text

/-! ### Ranges -/

/-- One of the ranges holds all from `lo` to `hi`. -/
def holdsAll (ranges : List (Nat × Nat)) (lo hi : Nat) : Bool :=
  ranges.any fun range => range.1.ble lo && hi.ble range.2

theorem inRanges_of_holdsAll {ranges : List (Nat × Nat)}
    (hascend : ranges.Pairwise fun range next => range.1 ≤ next.1) {lo hi n : Nat}
    (h : holdsAll ranges lo hi = true) (hlo : lo ≤ n) (hhi : n ≤ hi) :
    inRanges n ranges = true := by
  induction ranges with
  | nil => cases h
  | cons range ranges ih =>
    obtain ⟨hfirst, hrest⟩ := List.pairwise_cons.mp hascend
    have hbounds : ∃ holding ∈ range :: ranges, holding.1 ≤ lo ∧ hi ≤ holding.2 := by
      simpa [holdsAll] using h
    obtain ⟨holding, hmem, hlow, hhigh⟩ := hbounds
    rcases List.mem_cons.mp hmem with rfl | hmem
    · have hn : n ≤ holding.2 := Nat.le_trans hhi hhigh
      rw [inRanges, if_neg (by omega)]
      simp [hn]
    · have hlater : holdsAll ranges lo hi = true := by
        simp only [holdsAll, List.any_eq_true, Bool.and_eq_true, Nat.ble_eq]
        exact ⟨holding, hmem, hlow, hhigh⟩
      have hascends := hfirst holding hmem
      rw [inRanges, if_neg (by omega), ih hrest hlater, Bool.or_true]

theorem exists_of_inSteppedRanges {n : Nat} {ranges : List (Nat × Nat × Nat)}
    (h : inSteppedRanges n ranges = true) :
    ∃ range ∈ ranges, range.1 ≤ n ∧ n ≤ range.2.1 ∧ (n - range.1) % range.2.2 = 0 := by
  induction ranges with
  | nil => cases h
  | cons range ranges ih =>
    rw [inSteppedRanges] at h
    split at h
    · cases h
    · rename_i hlow
      rcases Bool.or_eq_true_iff.mp h with hhere | hlater
      · simp only [Bool.and_eq_true, decide_eq_true_eq, beq_iff_eq] at hhere
        exact ⟨range, .head _, Nat.le_of_not_lt hlow, hhere⟩
      · obtain ⟨range, hrange, hn⟩ := ih hlater
        exact ⟨range, .tail _ hrange, hn⟩

/-! ### The tables -/

theorem letterRanges_ascend : letterRanges.Pairwise fun range next => range.1 ≤ next.1 := by
  have hnext : letterRanges.IsChain fun range next => range.1 ≤ next.1 := by
    decide +kernel
  exact List.isChain_iff_pairwise.mp hnext

/-- Upper-case letters are letters, range by range or else, where other characters lie between them,
one by one. -/
theorem holdsAll_letterRanges :
    ∀ range ∈ upperRanges, holdsAll letterRanges range.1 range.2.1 = true ∨
    ∀ n ∈ List.range' range.1 ((range.2.1 - range.1) / range.2.2 + 1) range.2.2,
    holdsAll letterRanges n n = true := by
  decide +kernel

theorem isLetter_of_isUpperLetter {c : Char} (h : isUpperLetter c = true) : isLetter c = true := by
  unfold isUpperLetter at h
  unfold isLetter
  split at h
  · rename_i hascii
    have halpha : c.isAlpha = (c.isUpper || c.isLower) := rfl
    rw [if_pos hascii, halpha, h, Bool.true_or]
  · rename_i hascii
    rw [if_neg hascii]
    obtain ⟨range, hrange, hlo, hhi, hstep⟩ := exists_of_inSteppedRanges h
    rcases holdsAll_letterRanges range hrange with hall | heach
    · exact inRanges_of_holdsAll letterRanges_ascend hall hlo hhi
    · refine inRanges_of_holdsAll letterRanges_ascend (heach c.toNat ?_) (Nat.le_refl _)
        (Nat.le_refl _)
      have hsteps := Nat.mul_div_cancel' (Nat.dvd_of_mod_eq_zero hstep)
      refine List.mem_range'.mpr ⟨(c.toNat - range.1) / range.2.2, ?_, by omega⟩
      exact Nat.lt_succ_of_le (Nat.div_le_div_right (Nat.sub_le_sub_right hhi _))

end PackageReadme.Text
