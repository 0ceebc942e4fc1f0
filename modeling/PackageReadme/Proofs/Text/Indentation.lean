import Mathlib.Data.List.TakeWhile
import PackageReadme.Text.Line

/-! The indentation that lines share.

`IsSharedIndent` says what it is without computing it: spaces and tabs that every line starts with,
void lines aside, and no longer than any other such text. `isSharedIndent_sharedIndent`: as soon as
one line is not void, `sharedIndent` is that text, so `unindent` takes off exactly what can be taken
off all lines alike. -/
namespace PackageReadme.Text

/-! ### Common starts -/

theorem commonStart_prefix_left (a b : List Char) : commonStart a b <+: a := by
  induction a generalizing b with
  | nil => cases b <;> exact List.prefix_refl []
  | cons x a ih =>
    cases b with
    | nil => exact List.nil_prefix
    | cons y b =>
      rw [commonStart]
      split
      · exact (List.prefix_cons_inj x).mpr (ih b)
      · exact List.nil_prefix

theorem commonStart_prefix_right (a b : List Char) : commonStart a b <+: b := by
  induction a generalizing b with
  | nil => cases b <;> exact List.nil_prefix
  | cons x a ih =>
    cases b with
    | nil => exact List.nil_prefix
    | cons y b =>
      rw [commonStart]
      split
      · rename_i hxy
        subst hxy
        exact (List.prefix_cons_inj x).mpr (ih b)
      · exact List.nil_prefix

/-- What both texts start with is part of their common start. -/
theorem prefix_commonStart {s a b : List Char} (ha : s <+: a) (hb : s <+: b) :
    s <+: commonStart a b := by
  induction s generalizing a b with
  | nil => exact List.nil_prefix
  | cons x s ih =>
    obtain ⟨a', rfl, ha'⟩ := List.cons_prefix_iff.mp ha
    obtain ⟨b', rfl, hb'⟩ := List.cons_prefix_iff.mp hb
    rw [commonStart, if_pos rfl]
    exact (List.prefix_cons_inj x).mpr (ih ha' hb')

/-! ### The indentation of one line -/

/-- Spaces and tabs. -/
def IsIndent (s : List Char) : Prop :=
  ∀ c ∈ s, c = ' ' ∨ c = '\t'

theorem IsIndent.mono {s t : List Char} (h : IsIndent t) (hs : s <+: t) : IsIndent s :=
  fun c hc => h c (hs.subset hc)

theorem isIndent_indent (line : Line) : IsIndent line.indent := by
  intro c hc
  simpa using List.mem_takeWhile_imp hc

theorem indent_prefix_line (line : Line) : line.indent <+: line :=
  List.takeWhile_prefix _

/-- Spaces and tabs in front of a line go in front of its indentation. -/
theorem IsIndent.indent_append {s : List Char} (h : IsIndent s) (line : Line) :
    Line.indent (s ++ line) = s ++ line.indent := by
  have hall : ∀ c ∈ s, (c == ' ' || c == '\t') = true := by simpa [IsIndent] using h
  rw [Line.indent, List.takeWhile_append_of_pos hall, Line.indent]

/-- Spaces and tabs at the start of a line are part of its indentation. -/
theorem IsIndent.prefix_indent {s : List Char} {line : Line} (h : IsIndent s) (hs : s <+: line) :
    s <+: line.indent := by
  obtain ⟨rest, rfl⟩ := hs
  rw [h.indent_append]
  exact List.prefix_append ..

/-! ### The indentation of many lines -/

/-- Spaces and tabs that all lines start with which are not void. -/
structure SharesIndent (indent : List Char) (ls : List Line) : Prop where
  isIndent : IsIndent indent
  starts : ∀ line ∈ ls, line.isVoid = false → indent <+: line

/-- The longest indentation that all lines share which are not void. -/
structure IsSharedIndent (indent : List Char) (ls : List Line) : Prop where
  shares : SharesIndent indent ls
  longest : ∀ other, SharesIndent other ls → other.length ≤ indent.length

/-- One step of the search for a shared indentation. -/
def narrow (shared : List Char) (line : Line) : List Char :=
  commonStart shared line.indent

theorem foldl_narrow_prefix_start (ls : List Line) (start : List Char) :
    ls.foldl narrow start <+: start := by
  induction ls generalizing start with
  | nil => exact List.prefix_refl start
  | cons line rest ih => exact (ih _).trans (commonStart_prefix_left ..)

theorem foldl_narrow_prefix_indent {ls : List Line} {line : Line} (h : line ∈ ls)
    (start : List Char) :
    ls.foldl narrow start <+: line.indent := by
  induction ls generalizing start with
  | nil => cases h
  | cons first rest ih =>
    rcases List.mem_cons.mp h with rfl | h
    · exact (foldl_narrow_prefix_start rest _).trans (commonStart_prefix_right ..)
    · exact ih h _

theorem prefix_foldl_narrow {ls : List Line} {s start : List Char} (hs : s <+: start)
    (hls : ∀ line ∈ ls, s <+: line.indent) : s <+: ls.foldl narrow start := by
  induction ls generalizing start with
  | nil => exact hs
  | cons line rest ih =>
    exact ih (prefix_commonStart hs (hls line (List.mem_cons_self ..)))
      fun line' h => hls line' (List.mem_cons_of_mem line h)

theorem mem_filter_not_isVoid {ls : List Line} {line : Line} :
    line ∈ ls.filter (fun line => !line.isVoid) ↔ line ∈ ls ∧ line.isVoid = false := by
  simp

theorem sharedIndent_shares (ls : List Line) : SharesIndent (sharedIndent ls) ls := by
  unfold sharedIndent
  split
  · exact ⟨fun c hc => absurd hc List.not_mem_nil, fun line hline hvoid => List.nil_prefix⟩
  · rename_i first rest hsome
    refine ⟨(isIndent_indent first).mono (foldl_narrow_prefix_start rest _),
      fun line hline hvoid => ?_⟩
    have hmem : line ∈ first :: rest := hsome ▸ mem_filter_not_isVoid.mpr ⟨hline, hvoid⟩
    rcases List.mem_cons.mp hmem with rfl | hrest
    · exact (foldl_narrow_prefix_start rest _).trans (indent_prefix_line line)
    · exact (foldl_narrow_prefix_indent hrest _).trans (indent_prefix_line line)

/-- Whatever the lines share is part of what `sharedIndent` finds, if one of them is not void. -/
theorem SharesIndent.prefix_sharedIndent {ls : List Line} {other : List Char}
    (h : SharesIndent other ls) (hls : ∃ line ∈ ls, line.isVoid = false) :
    other <+: sharedIndent ls := by
  obtain ⟨line, hline, hvoid⟩ := hls
  have hstart : ∀ line ∈ ls.filter (fun line => !line.isVoid), other <+: line.indent := by
    intro line hmem
    obtain ⟨hline, hvoid⟩ := mem_filter_not_isVoid.mp hmem
    exact h.isIndent.prefix_indent (h.starts line hline hvoid)
  unfold sharedIndent
  split
  · rename_i hnone
    exact absurd (hnone ▸ mem_filter_not_isVoid.mpr ⟨hline, hvoid⟩) List.not_mem_nil
  · rename_i first rest hsome
    rw [hsome] at hstart
    exact prefix_foldl_narrow (hstart first (List.mem_cons_self ..))
      fun line h => hstart line (List.mem_cons_of_mem first h)

theorem isSharedIndent_sharedIndent {ls : List Line} (hls : ∃ line ∈ ls, line.isVoid = false) :
    IsSharedIndent (sharedIndent ls) ls :=
  ⟨sharedIndent_shares ls, fun _ h => (h.prefix_sharedIndent hls).length_le⟩

end PackageReadme.Text
