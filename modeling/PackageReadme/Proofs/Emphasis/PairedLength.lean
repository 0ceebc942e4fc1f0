import Mathlib.Order.Bounds.Defs
import PackageReadme.Proofs.Emphasis.Parens

/-! The length of the longest paired start, found in one pass.

`pairedLength` goes along a text once. It keeps a 32-bit count of the open parentheses and a single
length: all of the text while nothing is open, and else the place of the outermost parenthesis that
is open. That place is where the longest paired start of what was read ends (`Passed.keeps`), so
that no other start has to be remembered. As long as the count cannot overflow, the pass gives the
greatest number of bytes in which the parentheses are paired (`pairedLength_isGreatest`), and the
text up to there is `pairedStart`. -/
namespace PackageReadme.Emphasis
open Text

/-! ### The longest start of a longer text -/

theorem pairedStart_eq_self {s : List Char} (h : Paired s) : pairedStart s = s :=
  (pairedStart_isPrefix s).eq_of_length_le (length_le_pairedStart (List.prefix_refl s) h)

/-- A character after which something is open does not reach back to make a longer start. -/
theorem pairedStart_concat {front : List Char} {c : Char} (h : ¬ Paired (front ++ [c])) :
    pairedStart (front ++ [c]) = pairedStart front := by
  have hback : pairedStart (front ++ [c]) <+: front := by
    refine (List.prefix_concat_iff.mp (pairedStart_isPrefix _)).resolve_left fun hwhole => h ?_
    rw [← hwhole]
    exact paired_pairedStart _
  have hfront : pairedStart front <+: front ++ [c] :=
    (pairedStart_isPrefix front).trans (List.prefix_append ..)
  exact (prefix_pairedStart hback (paired_pairedStart _)).eq_of_length_le
    (length_le_pairedStart hfront (paired_pairedStart _))

/-- No start reaches beyond a parenthesis that closes what is not open. -/
theorem pairedStart_append_close {front : List Char} (h : Paired front) (rest : List Char) :
    pairedStart (front ++ ')' :: rest) = front := by
  obtain ⟨more, hmore⟩ := prefix_pairedStart (List.prefix_append front (')' :: rest)) h
  have hpaired : Paired (front ++ more) := hmore ▸ paired_pairedStart _
  cases more with
  | nil => rw [← hmore, List.append_nil]
  | cons c more =>
    have hfront : front ++ c :: more <+: front ++ ')' :: rest := hmore ▸ pairedStart_isPrefix _
    obtain ⟨rfl, -⟩ := List.cons_prefix_cons.mp ((List.prefix_append_right_inj front).mp hfront)
    have hopened := hpaired.opened (front ++ [')'])
      ⟨more, by rw [List.append_assoc, List.singleton_append]⟩
    have hclosed := h.closed
    simp only [List.count_append, List.count_singleton_self] at hopened
    have hother : [')'].count '(' = 0 := rfl
    omega

/-! ### One pass -/

theorem byteSize_append (a b : List Char) : byteSize (a ++ b) = byteSize a + byteSize b := by
  induction a with
  | nil => exact (Nat.zero_add _).symm
  | cons c a ih => rw [List.cons_append, byteSize, ih, byteSize, Nat.add_assoc]

/-- A depth that 32 bits can hold with a sign. -/
def Fits (depth : Nat) : Prop :=
  depth < Nat.pow 2 31

theorem Fits.ofNat_eq_zero_iff {depth : Nat} (h : Fits depth) :
    Int32.ofNat depth = 0 ↔ depth = 0 := by
  rw [← Int32.toInt_inj, Int32.toInt_ofNat_of_lt h, Int32.toInt_zero]
  exact Int.natCast_eq_zero

theorem Fits.not_ofNat_lt_zero {depth : Nat} (h : Fits depth) : ¬ Int32.ofNat depth < 0 := by
  rw [Int32.lt_iff_toInt_lt, Int32.toInt_ofNat_of_lt h, Int32.toInt_zero]
  exact Int.not_lt.mpr (Int.natCast_nonneg depth)

theorem ofNat_succ_sub_one (depth : Nat) : Int32.ofNat (depth + 1) - 1 = Int32.ofNat depth := by
  rw [Int32.ofNat_add]
  exact Int32.add_sub_cancel _ _

theorem depthAfter?_eq_none {depth : Nat} {c : Char} (h : depthAfter? depth c = none) :
    c = ')' ∧ depth = 0 := by
  unfold depthAfter? at h
  split at h
  · cases h
  · split at h
    · rename_i hclose
      split at h
      · rename_i hdepth
        exact ⟨hclose, hdepth⟩
      · cases h
    · cases h

/-- **One step of the pass** follows the depth, and stops where a parenthesis closes what is not
open. If nothing is open after the character, all of the text may be paired; if it opens the first
parenthesis, the start ends before it; and else the length stays what it was. -/
theorem pairedLengthFrom_cons {total depth len place : Nat} (hfits : Fits depth)
    (hlen : depth = 0 → len = total) (c : Char) (cs : List Char) :
    pairedLengthFrom total (Int32.ofNat depth) len place (c :: cs) =
      (depthAfter? depth c).elim place fun after =>
        pairedLengthFrom total (Int32.ofNat after)
          (if after = 0 then total else if depth = 0 then place else len)
          (place + c.utf8Size) cs := by
  rw [pairedLengthFrom, depthAfter?]
  by_cases hopen : c = '('
  · rw [if_pos hopen, if_pos hopen, Option.elim_some, if_neg (Nat.succ_ne_zero depth),
      Int32.ofNat_add]
    simp only [hfits.ofNat_eq_zero_iff]
    rfl
  · rw [if_neg hopen, if_neg hopen]
    by_cases hclose : c = ')'
    · rw [if_pos hclose, if_pos hclose]
      cases depth with
      | zero =>
        have hzero : ¬ Int32.ofNat 0 - 1 = 0 := by decide
        have hbelow : Int32.ofNat 0 - 1 < 0 := by decide
        rw [if_neg hzero, if_pos hbelow, if_pos rfl, Option.elim_none]
      | succ depth =>
        have hless : Fits depth := Nat.lt_of_succ_lt hfits
        rw [if_neg (Nat.succ_ne_zero depth), Option.elim_some, Nat.add_sub_cancel,
          if_neg (Nat.succ_ne_zero depth), ofNat_succ_sub_one, if_neg hless.not_ofNat_lt_zero]
        simp only [hless.ofNat_eq_zero_iff]
        split <;> rfl
    · rw [if_neg hclose, if_neg hclose, Option.elim_some]
      by_cases hdepth : depth = 0
      · rw [if_pos hdepth, hlen hdepth]
      · rw [if_neg hdepth, if_neg hdepth]

/-- What the pass knows of the part of the text that it has read. -/
structure Passed (total : Nat) (front : List Char) (depth len place : Nat) : Prop where
  opens : depthOn? 0 front = some depth
  ends : place = byteSize front
  keeps : len = if depth = 0 then total else byteSize (pairedStart front)

theorem Passed.fits {total depth len place : Nat} {front rest : List Char}
    (h : Passed total front depth len place) (hfew : (front ++ rest).count '(' < Nat.pow 2 31) :
    Fits depth := by
  have hcount := (depthOn?_eq_some_iff.mp h.opens).2
  rw [List.count_append] at hfew
  show depth < Nat.pow 2 31
  omega

theorem depthOn?_concat {before depth : Nat} {s : List Char} (h : depthOn? before s = some depth)
    (c : Char) :
    depthOn? before (s ++ [c]) = depthAfter? depth c := by
  rw [depthOn?_append, h, Option.bind_some, depthOn?]
  exact Option.bind_fun_some _

/-- What the pass knows goes on with every character that closes nothing but what is open. -/
theorem Passed.concat {total depth len place after : Nat} {front : List Char}
    (h : Passed total front depth len place) {c : Char}
    (hafter : depthAfter? depth c = some after) :
    Passed total (front ++ [c]) after
      (if after = 0 then total else if depth = 0 then place else len) (place + c.utf8Size) where
  opens := by rw [depthOn?_concat h.opens, hafter]
  ends := by rw [h.ends, byteSize_append]; rfl
  keeps := by
    by_cases hclosed : after = 0
    · rw [if_pos hclosed, if_pos hclosed]
    · have hopen : ¬ Paired (front ++ [c]) := by
        rw [paired_iff, depthOn?_concat h.opens, hafter]
        simpa using hclosed
      rw [if_neg hclosed, if_neg hclosed, pairedStart_concat hopen]
      by_cases hdepth : depth = 0
      · have hpaired : Paired front := paired_iff.mpr (hdepth ▸ h.opens)
        rw [if_pos hdepth, pairedStart_eq_self hpaired, h.ends]
      · rw [if_neg hdepth, h.keeps, if_neg hdepth]

/-- **The pass ends with the length of the longest paired start**, from wherever it stands. -/
theorem Passed.pairedLengthFrom_eq {s front rest : List Char} {depth len place : Nat}
    (h : Passed (byteSize s) front depth len place) (hs : s = front ++ rest)
    (hfew : s.count '(' < Nat.pow 2 31) :
    pairedLengthFrom (byteSize s) (Int32.ofNat depth) len place rest =
      byteSize (pairedStart s) := by
  induction rest generalizing front depth len place with
  | nil =>
    rw [List.append_nil] at hs
    subst hs
    rw [pairedLengthFrom, h.keeps]
    split
    · rename_i hdepth
      rw [pairedStart_eq_self (paired_iff.mpr (hdepth ▸ h.opens))]
    · rfl
  | cons c rest ih =>
    have hlen (hdepth : depth = 0) : len = byteSize s := by rw [h.keeps, if_pos hdepth]
    rw [pairedLengthFrom_cons (h.fits (hs ▸ hfew)) hlen]
    cases hafter : depthAfter? depth c with
    | none =>
      obtain ⟨rfl, rfl⟩ := depthAfter?_eq_none hafter
      rw [Option.elim_none, hs, pairedStart_append_close (paired_iff.mpr h.opens), h.ends]
    | some after =>
      exact ih (h.concat hafter) (by rw [hs, List.append_assoc, List.singleton_append])

theorem pairedLength_eq {s : List Char} (hfew : s.count '(' < Nat.pow 2 31) :
    pairedLength s = byteSize (pairedStart s) :=
  Passed.pairedLengthFrom_eq ⟨rfl, rfl, rfl⟩ (List.nil_append s).symm hfew

/-! ### The greatest length -/

/-- The first `n` bytes of a text are whole characters, and the parentheses in them are paired. -/
def PairedUpTo (s : List Char) (n : Nat) : Prop :=
  ∃ start, start <+: s ∧ byteSize start = n ∧ Paired start

theorem isGreatest_pairedStart (s : List Char) :
    IsGreatest {n | PairedUpTo s n} (byteSize (pairedStart s)) := by
  refine ⟨⟨pairedStart s, pairedStart_isPrefix s, rfl, paired_pairedStart s⟩, ?_⟩
  rintro n ⟨start, hfront, rfl, hpaired⟩
  obtain ⟨more, hmore⟩ := prefix_pairedStart hfront hpaired
  rw [← hmore, byteSize_append]
  exact Nat.le_add_right _ _

/-- **One pass finds the longest paired start**: in a text with fewer than 2³¹ parentheses its
length is the greatest number of bytes that are whole characters with paired parentheses. The text
up to there is the part of a link that is read again. -/
theorem pairedLength_isGreatest (s : List Char) (hfew : s.count '(' + s.count ')' < Nat.pow 2 31) :
    IsGreatest {n | PairedUpTo s n} (pairedLength s) ∧
      slice 0 (pairedLength s) s = .ok (pairedStart s) := by
  rw [pairedLength_eq (Nat.lt_of_le_of_lt (Nat.le_add_right _ _) hfew)]
  obtain ⟨rest, hrest⟩ := pairedStart_isPrefix s
  have hslice := slice_byteSize (pairedStart s) rest
  rw [hrest] at hslice
  exact ⟨isGreatest_pairedStart s, hslice⟩

/-- Nested parentheses around a character of two bytes, and after them one that stays open around
another pair. -/
theorem pairedLength_isGreatest_nested :
    let s := "a(é(b))c(d(e)".toList
    s.count '(' + s.count ')' < Nat.pow 2 31 ∧ pairedLength s = 9 ∧
      IsGreatest {n | PairedUpTo s n} 9 ∧
      slice 0 9 s = .ok "a(é(b))c".toList := by
  intro s
  have hfew : s.count '(' + s.count ')' < Nat.pow 2 31 := by decide
  have hlength : pairedLength s = 9 := by decide
  have hstart : pairedStart s = "a(é(b))c".toList := by decide
  have hgreatest := pairedLength_isGreatest s hfew
  rw [hlength, hstart] at hgreatest
  exact ⟨hfew, hlength, hgreatest⟩

end PackageReadme.Emphasis
