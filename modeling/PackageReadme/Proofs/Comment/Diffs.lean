import Mathlib.Data.List.Forall2
import PackageReadme.Comment.Block
import PackageReadme.Proofs.Text.Indentation

/-! Telling diffs apart changes tags and nothing else.

The scan asks for the language of code before the indentation is taken off, and asks for nothing
else that depends on `detectDiff`. A line has its mark after its own indentation, so the shorter
indentation that the lines of code share neither hides a mark nor brings one out
(`isDiffLine_append`), and the language can as well be told from the lines that a block shows.
`Block.retagged` does so. Retagging turns the blocks for one value of `detectDiff` into the blocks
for the other (`blocks_map_retagged`), from which `blocks_differ_in_tags` follows. -/
namespace PackageReadme.Comment
open Text

/-! ### Marks -/

/-- The first character after spaces and tabs is a plus or a minus. -/
def IsMarked (line : Line) : Prop :=
  ∃ indent mark rest, line = indent ++ mark :: rest ∧ IsIndent indent ∧ (mark = '+' ∨ mark = '-')

/-- More indentation does not make a diff of a line. -/
theorem isDiffLine_append {indent : List Char} (h : IsIndent indent) (line : Line) :
    isDiffLine (indent ++ line) = isDiffLine line := by
  have hdrop : (indent ++ line).drop (Line.indent (indent ++ line)).length =
      line.drop line.indent.length := by
    rw [h.indent_append, List.length_append, List.drop_length_add_append]
  simp only [isDiffLine, hdrop]

theorem isDiffLine_iff {line : Line} : isDiffLine line = true ↔ IsMarked line := by
  constructor
  · intro h
    rw [isDiffLine] at h
    split at h
    · rename_i mark rest hdrop
      refine ⟨line.indent, mark, rest, ?_, isIndent_indent line, by simpa using h⟩
      rw [← hdrop]
      exact (List.prefix_iff_eq_append.mp (indent_prefix_line line)).symm
    · cases h
  · intro h
    obtain ⟨indent, mark, rest, hline, hindent, hmark⟩ := h
    rw [hline, isDiffLine_append hindent]
    rcases hmark with hmark | hmark <;> rw [hmark] <;> rfl

/-! ### The language of code -/

/-- The shared indentation can be taken off before the language is told. -/
theorem codeLanguage_unindent (detectDiff : Bool) (body : List Line) :
    codeLanguage detectDiff (unindent body) = codeLanguage detectDiff body := by
  have hsame : ∀ line ∈ body, isDiffLine
      (if line.isVoid then line else line.drop (sharedIndent body).length) = isDiffLine line := by
    intro line hline
    split
    · rfl
    · rename_i hsolid
      have hstarts := (sharedIndent_shares body).starts line hline (by simpa using hsolid)
      conv_rhs => rw [← List.prefix_iff_eq_append.mp hstarts]
      exact (isDiffLine_append (sharedIndent_shares body).isIndent _).symm
  have hany : (unindent body).any isDiffLine = body.any isDiffLine := by
    apply Bool.eq_iff_iff.mpr
    simp only [unindent, List.any_eq_true, List.mem_map, exists_exists_and_eq_and]
    exact exists_congr fun line => and_congr_right fun hline => by rw [hsame line hline]
  rw [codeLanguage, hany, codeLanguage]

/-- The kind of a block, with the language of code told from the lines that the block shows. -/
def BlockKind.retagged (detectDiff : Bool) (shown : List Line) : BlockKind → BlockKind
  | .code _ => .code (codeLanguage detectDiff shown)
  | .paragraph => .paragraph
  | .heading => .heading

def Block.retagged (detectDiff : Bool) (block : Block) : Block :=
  { block with kind := block.kind.retagged detectDiff block.lines }

/-! ### Two scans -/

/-- Retagging is all that it takes to get from one scan to the other. -/
theorem scan_map_retagged (detectDiff other : Bool) (skip : Nat) (afterVoid afterHeading : Bool)
    (index : Nat) (ls : List Line) :
    (scan other skip afterVoid afterHeading index ls).map (Block.retagged detectDiff) =
      scan detectDiff skip afterVoid afterHeading index ls := by
  induction ls generalizing skip afterVoid afterHeading index with
  | nil => rfl
  | cons line rest ih =>
    cases skip with
    | succ skip => exact ih ..
    | zero =>
      simp only [scan]
      split
      · exact ih ..
      · split
        · rw [List.map_cons, ih, Block.retagged, BlockKind.retagged, codeLanguage_unindent]
        · split
          · rw [List.map_cons, ih]
            rfl
          · rw [List.map_cons, ih]
            rfl

/-! ### Two lists of blocks -/

/-- A tag does not tell where a block stands. -/
theorem stretch_map_retagged (detectDiff : Bool) (count : Nat) (bs : List Block) :
    (stretch count bs).map (Block.retagged detectDiff) =
      stretch count (bs.map (Block.retagged detectDiff)) := by
  induction bs with
  | nil => rfl
  | cons block bs ih =>
    cases bs with
    | nil => rfl
    | cons next rest =>
      rw [stretch, List.map_cons, ih]
      rfl

/-- Retagging is all that it takes to get from the blocks for one value of `detectDiff` to those for
the other. -/
theorem blocks_map_retagged (detectDiff other : Bool) (text : List Char) :
    (blocks text other).map (Block.retagged detectDiff) = blocks text detectDiff := by
  have hscan := scan_map_retagged detectDiff other 0 false false 0 (unindent (lines text))
  simp only [blocks, ← hscan]
  cases scan other 0 false false 0 (unindent (lines text)) with
  | nil => rfl
  | cons first rest => exact stretch_map_retagged ..

theorem codeLanguage_eq_diff_iff {detectDiff : Bool} {ls : List Line} :
    codeLanguage detectDiff ls = .diff ↔ detectDiff = true ∧ ∃ line ∈ ls, IsMarked line := by
  unfold codeLanguage
  split
  · rename_i h
    simpa [isDiffLine_iff] using h
  · rename_i h
    simpa [isDiffLine_iff] using h

/-- A block of code has the tag that its own lines give it. -/
theorem language_of_mem_blocks {text : List Char} {detectDiff : Bool} {block : Block}
    {language : Language} (h : block ∈ blocks text detectDiff)
    (hkind : block.kind = .code language) :
    language = codeLanguage detectDiff block.lines := by
  rw [← blocks_map_retagged detectDiff detectDiff] at h
  obtain ⟨other, -, hother⟩ := List.mem_map.mp h
  rw [← hother] at hkind ⊢
  show language = codeLanguage detectDiff other.lines
  have hretagged : other.kind.retagged detectDiff other.lines = .code language := hkind
  cases hold : other.kind with
  | paragraph => rw [hold] at hretagged; cases hretagged
  | heading => rw [hold] at hretagged; cases hretagged
  | code before =>
    rw [hold] at hretagged
    exact (BlockKind.code.inj hretagged).symm

/-- Two blocks with the same lines in the same place and of the same kind, but for the language of
code. -/
structure SameButTag (block other : Block) : Prop where
  lines : block.lines = other.lines
  start : block.start = other.start
  stop : block.stop = other.stop
  kind : block.kind = other.kind ∨
    ∃ language language', block.kind = .code language ∧ other.kind = .code language'

theorem sameButTag_retagged (detectDiff : Bool) (block : Block) :
    SameButTag block (block.retagged detectDiff) where
  lines := rfl
  start := rfl
  stop := rfl
  kind := by
    cases hold : block.kind with
    | paragraph => exact .inl (by rw [Block.retagged, hold, BlockKind.retagged])
    | heading => exact .inl (by rw [Block.retagged, hold, BlockKind.retagged])
    | code before => exact .inr ⟨before, _, rfl, by rw [Block.retagged, hold, BlockKind.retagged]⟩

/-- **Telling diffs apart changes tags and nothing else**: with and without it there are as many
blocks, each with the same lines in the same place and of the same kind, but for the language of
code. Without it all code is Go. With it code is a diff exactly if one of the lines that it shows
has a plus or a minus after its spaces and tabs. -/
theorem blocks_differ_in_tags (text : List Char) :
    List.Forall₂ SameButTag (blocks text false) (blocks text true) ∧
      (∀ block ∈ blocks text false, ∀ language, block.kind = .code language → language = .go) ∧
      ∀ block ∈ blocks text true, ∀ language, block.kind = .code language →
        (language = .diff ↔ ∃ line ∈ block.lines, IsMarked line) := by
  refine ⟨?_, fun block hblock language hkind => ?_, fun block hblock language hkind => ?_⟩
  · rw [← blocks_map_retagged true false, List.forall₂_map_right_iff, List.forall₂_same]
    exact fun block _ => sameButTag_retagged true block
  · exact language_of_mem_blocks hblock hkind
  · rw [language_of_mem_blocks hblock hkind, codeLanguage_eq_diff_iff]
    exact and_iff_right rfl

end PackageReadme.Comment
