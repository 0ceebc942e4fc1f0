import Mathlib.Data.List.Basic
import PackageReadme.Comment.Heading
import PackageReadme.Proofs.Text.Letters

/-! Which lines pass as a heading.

`IsTitle` says of a text as a whole what the heading criteria ask for: its first and last
characters, the characters that it must not hold, and what stands after each apostrophe and each
period. The criteria are checked from left to right, an apostrophe together with the `s` after it,
so that the check goes on two characters later; since neither of these is an apostrophe again,
nothing is passed over (`apostrophesFit_iff`). Main statement: `heading_accepts_titles`. -/
namespace PackageReadme.Comment
open Text

/-! ### After each mark -/

/-- What stands after a mark satisfies `P`, wherever the mark stands. -/
def AfterEach (mark : Char) (P : List Char → Prop) (s : List Char) : Prop :=
  ∀ front rest, s = front ++ mark :: rest → P rest

theorem afterEach_nil (mark : Char) (P : List Char → Prop) : AfterEach mark P [] := by
  intro front rest h
  simp at h

theorem afterEach_cons {mark c : Char} {P : List Char → Prop} {s : List Char} :
    AfterEach mark P (c :: s) ↔ (c = mark → P s) ∧ AfterEach mark P s := by
  constructor
  · intro h
    refine ⟨?_, fun front rest hs => h (c :: front) rest (by rw [hs, List.cons_append])⟩
    rintro rfl
    exact h [] s rfl
  · rintro ⟨hhere, hlater⟩ front rest h
    cases front with
    | nil =>
      obtain ⟨rfl, rfl⟩ := List.cons.inj h
      exact hhere rfl
    | cons d front => exact hlater front rest (List.cons.inj h).2

/-- An `s`, and then a space or nothing. -/
def IsPossessive (rest : List Char) : Prop :=
  ∃ after, rest = 's' :: after ∧ (after = [] ∨ ∃ more, after = ' ' :: more)

/-- A character other than a space. -/
def GoesOn (rest : List Char) : Prop :=
  ∃ c more, rest = c :: more ∧ c ≠ ' '

theorem apostrophesFit_iff (s : List Char) :
    apostrophesFit s = true ↔ AfterEach '\'' IsPossessive s := by
  fun_induction apostrophesFit s with
  | case1 => exact iff_of_true rfl (afterEach_nil _ _)
  | case2 after ih =>
    have hspace : after.head?.all (· == ' ') = true ↔ IsPossessive ('s' :: after) := by
      cases after <;> simp [IsPossessive]
    rw [Bool.and_eq_true, ih, hspace, afterEach_cons, afterEach_cons]
    simp
  | case3 rest hother =>
    refine iff_of_false Bool.false_ne_true fun h => ?_
    obtain ⟨after, hrest, -⟩ := (afterEach_cons.mp h).1 rfl
    exact hother after hrest
  | case4 c rest hother ih =>
    rw [ih, afterEach_cons]
    exact (and_iff_right fun heq => absurd heq hother).symm

theorem periodsFit_iff (s : List Char) : periodsFit s = true ↔ AfterEach '.' GoesOn s := by
  fun_induction periodsFit s with
  | case1 => exact iff_of_true rfl (afterEach_nil _ _)
  | case2 rest ih =>
    have hgoesOn : rest.head?.any (· != ' ') = true ↔ GoesOn rest := by
      cases rest <;> simp [GoesOn]
    rw [Bool.and_eq_true, ih, hgoesOn, afterEach_cons]
    simp
  | case3 c rest hother ih =>
    rw [ih, afterEach_cons]
    exact (and_iff_right fun heq => absurd heq hother).symm

/-! ### Titles -/

/-- What a heading looks like. -/
structure IsTitle (title : List Char) : Prop where
  first : ∃ c rest, title = c :: rest ∧ isUpperLetter c = true
  last : ∃ front c, title = front ++ [c] ∧ (isLetter c = true ∨ isDecimalDigit c = true)
  fit : ∀ c ∈ title, c ∉ unfitForHeading
  apostrophes : AfterEach '\'' IsPossessive title
  periods : AfterEach '.' GoesOn title

theorem hasHeadingEdges_iff {s : List Char} :
    hasHeadingEdges s = true ↔ (∃ c rest, s = c :: rest ∧ isUpperLetter c = true) ∧
      ∃ front c, s = front ++ [c] ∧ (isLetter c = true ∨ isDecimalDigit c = true) := by
  have hfirst : s.head?.any isUpperLetter = true ↔
      ∃ c rest, s = c :: rest ∧ isUpperLetter c = true := by
    cases s <;> simp
  have hlast : (s.getLast?.any fun c => isLetter c || isDecimalDigit c) = true ↔
      ∃ front c, s = front ++ [c] ∧ (isLetter c = true ∨ isDecimalDigit c = true) := by
    rcases List.eq_nil_or_concat' s with rfl | ⟨front, c, rfl⟩
    · simp
    · simp [and_assoc]
  rw [hasHeadingEdges, Bool.and_eq_true, hfirst, hlast]

/-- The criteria that are checked one after another make a title. -/
theorem isTitle_iff {s : List Char} :
    IsTitle s ↔ (hasHeadingEdges s && !s.any unfitForHeading.contains && apostrophesFit s &&
      periodsFit s) = true := by
  have hfit : (!s.any unfitForHeading.contains) = true ↔ ∀ c ∈ s, c ∉ unfitForHeading := by
    simp
  rw [Bool.and_eq_true, Bool.and_eq_true, Bool.and_eq_true, hasHeadingEdges_iff, hfit,
    apostrophesFit_iff, periodsFit_iff]
  constructor
  · exact fun h => ⟨⟨⟨⟨h.first, h.last⟩, h.fit⟩, h.apostrophes⟩, h.periods⟩
  · intro h
    obtain ⟨⟨⟨⟨hfirst, hlast⟩, hfit⟩, happ⟩, hper⟩ := h
    exact ⟨hfirst, hlast, hfit, happ, hper⟩

/-! ### Titles of one letter -/

/-- **A single character is a title just if it is an upper-case letter**, which is its own last
letter. -/
theorem isTitle_singleton_iff {c : Char} : IsTitle [c] ↔ isUpperLetter c = true := by
  constructor
  · intro h
    obtain ⟨d, rest, heq, hd⟩ := h.first
    rwa [(List.cons.inj heq).1]
  · intro h
    have hne {d : Char} (hd : isUpperLetter d = false) : c ≠ d := by
      rintro rfl
      rw [h] at hd
      cases hd
    have hunfit : unfitForHeading.any isUpperLetter = false := by
      decide
    refine ⟨⟨c, [], rfl, h⟩, ⟨[], c, rfl, .inl (isLetter_of_isUpperLetter h)⟩, ?_, ?_, ?_⟩
    · exact List.forall_mem_singleton.mpr fun hmem => List.any_eq_false.mp hunfit c hmem h
    · exact afterEach_cons.mpr ⟨fun heq => absurd heq (hne (by decide)), afterEach_nil _ _⟩
    · exact afterEach_cons.mpr ⟨fun heq => absurd heq (hne (by decide)), afterEach_nil _ _⟩

/-! ### Lines -/

/-- **A line passes as a heading just if it is a title between blanks**, and the heading is that
title. A letter in upper case is a title by itself. -/
theorem heading_accepts_titles (line title : List Char) :
    (heading? line = some title ↔ title = trim line ∧ IsTitle title) ∧
      ∀ c, IsTitle [c] ↔ isUpperLetter c = true := by
  refine ⟨?_, fun c => isTitle_singleton_iff⟩
  simp only [heading?]
  split
  · rename_i hpasses
    rw [Option.some.injEq, eq_comm]
    exact ⟨fun heq => ⟨heq, heq ▸ isTitle_iff.mpr hpasses⟩, fun h => h.1⟩
  · rename_i hfails
    refine iff_of_false (by simp) fun h => hfails ?_
    rw [← h.1]
    exact isTitle_iff.mp h.2

end PackageReadme.Comment
