import PackageReadme.Markdown
import PackageReadme.Proofs.Text.Indentation
import PackageReadme.Proofs.Text.Lines

/-! Indentation that all lines have counts for nothing.

`shifted` puts the same spaces and tabs in front of all lines of a text, void lines aside. That
makes the shared indentation longer by just these (`sharedIndent_map_shifted`), and so they are gone
once it is taken off (`unindent_map_shifted`). `blocks_shifted`: a comment has the same blocks
wherever its text stands on the page. -/
namespace PackageReadme.Comment
open Text

/-- A line with more in front of it, unless it is void. -/
def shiftedLine (lead : List Char) (line : Line) : Line :=
  if line.isVoid then line else lead ++ line

/-- A text with the same put in front of all lines that are not void. -/
def shifted (lead text : List Char) : List Char :=
  (lines text).flatMap (shiftedLine lead)

/-! ### Lines -/

variable {lead : List Char}

theorem shiftedLine_of_void {line : Line} (h : line.isVoid = true) (lead : List Char) :
    shiftedLine lead line = line := by
  rw [shiftedLine, if_pos h]

theorem shiftedLine_of_solid {line : Line} (h : line.isVoid = false) (lead : List Char) :
    shiftedLine lead line = lead ++ line := by
  rw [shiftedLine, h]
  rfl

/-- Spaces and tabs neither make a line void nor make it solid. -/
theorem isVoid_shiftedLine (hlead : IsIndent lead) (line : Line) :
    (shiftedLine lead line).isVoid = line.isVoid := by
  cases hvoid : line.isVoid with
  | true => rw [shiftedLine_of_void hvoid, hvoid]
  | false =>
    rw [shiftedLine_of_solid hvoid]
    cases lead with
    | nil => exact hvoid
    | cons c lead =>
      have hc : c ≠ '\n' := by
        rcases hlead c (List.mem_cons_self ..) with hc | hc <;> rw [hc] <;> decide
      simp [Line.isVoid, hc]

/-- The lines of a shifted text are the lines of the text, each of them shifted. -/
theorem lines_shifted (hlead : IsIndent lead) (text : List Char) :
    lines (shifted lead text) = (lines text).map (shiftedLine lead) := by
  have hnewline : '\n' ∉ lead := by
    intro hmem
    rcases hlead '\n' hmem with h | h <;> exact absurd h (by decide)
  have happend : shiftedLine lead = fun line => (if line.isVoid then [] else lead) ++ line := by
    funext line
    rw [shiftedLine]
    split <;> rfl
  rw [shifted, happend]
  apply lines_flatMap_append
  intro line
  split
  · exact List.not_mem_nil
  · exact hnewline

/-! ### Shared indentation -/

theorem exists_solid_map_shifted (hlead : IsIndent lead) {ls : List Line}
    (h : ∃ line ∈ ls, line.isVoid = false) :
    ∃ line ∈ ls.map (shiftedLine lead), line.isVoid = false := by
  obtain ⟨line, hline, hsolid⟩ := h
  refine ⟨shiftedLine lead line, List.mem_map_of_mem hline, ?_⟩
  rw [isVoid_shiftedLine hlead, hsolid]

/-- What lines share is what they share when they are shifted, without what was put in front of
them. -/
theorem sharesIndent_map_shifted_iff (hlead : IsIndent lead) {indent : List Char} {ls : List Line} :
    SharesIndent (lead ++ indent) (ls.map (shiftedLine lead)) ↔ SharesIndent indent ls := by
  constructor
  · intro h
    refine ⟨fun c hc => h.isIndent c (List.mem_append_right lead hc), fun line hline hsolid => ?_⟩
    have hstarts := h.starts (shiftedLine lead line) (List.mem_map_of_mem hline)
      (by rw [isVoid_shiftedLine hlead, hsolid])
    rw [shiftedLine_of_solid hsolid] at hstarts
    exact (List.prefix_append_right_inj lead).mp hstarts
  · intro h
    refine ⟨fun c hc => ?_, fun line hline hsolid => ?_⟩
    · rcases List.mem_append.mp hc with hc | hc
      · exact hlead c hc
      · exact h.isIndent c hc
    · obtain ⟨before, hbefore, hline⟩ := List.mem_map.mp hline
      rw [← hline, isVoid_shiftedLine hlead] at hsolid
      rw [← hline, shiftedLine_of_solid hsolid]
      exact (List.prefix_append_right_inj lead).mpr (h.starts before hbefore hsolid)

/-- The shared indentation gets longer by what is put in front of the lines. -/
theorem sharedIndent_map_shifted (hlead : IsIndent lead) {ls : List Line}
    (h : ∃ line ∈ ls, line.isVoid = false) :
    sharedIndent (ls.map (shiftedLine lead)) = lead ++ sharedIndent ls := by
  have hsolid := exists_solid_map_shifted hlead h
  have hlonger : lead ++ sharedIndent ls <+: sharedIndent (ls.map (shiftedLine lead)) :=
    ((sharesIndent_map_shifted_iff hlead).mpr (sharedIndent_shares ls)).prefix_sharedIndent hsolid
  obtain ⟨more, hmore⟩ := hlonger
  rw [List.append_assoc] at hmore
  -- what is found beyond that is shared by the lines as they were, so it is nothing
  have hshares := sharedIndent_shares (ls.map (shiftedLine lead))
  rw [← hmore, sharesIndent_map_shifted_iff hlead] at hshares
  have hlength := (hshares.prefix_sharedIndent h).length_le
  rw [List.length_append] at hlength
  have hnil : more = [] := List.length_eq_zero_iff.mp (by omega)
  rw [← hmore, hnil, List.append_nil]

/-- Taking off what lines share takes off all that was put in front of them. -/
theorem unindent_map_shifted (hlead : IsIndent lead) (ls : List Line) :
    unindent (ls.map (shiftedLine lead)) = unindent ls := by
  by_cases h : ∃ line ∈ ls, line.isVoid = false
  · rw [unindent, unindent, sharedIndent_map_shifted hlead h, List.map_map]
    apply List.map_congr_left
    intro line _
    show (if (shiftedLine lead line).isVoid then shiftedLine lead line else _) = _
    rw [isVoid_shiftedLine hlead]
    cases hvoid : line.isVoid with
    | true => rw [if_pos rfl, if_pos rfl, shiftedLine_of_void hvoid]
    | false =>
      rw [if_neg Bool.false_ne_true, if_neg Bool.false_ne_true, shiftedLine_of_solid hvoid,
        List.length_append, List.drop_length_add_append]
  · have hsame : ls.map (shiftedLine lead) = ls.map id := by
      apply List.map_congr_left
      intro line hline
      apply shiftedLine_of_void
      cases hvoid : line.isVoid with
      | true => rfl
      | false => exact absurd ⟨line, hline, hvoid⟩ h
    rw [hsame, List.map_id]

/-! ### Blocks -/

/-- **Where a comment stands on the page does not count**: with the same spaces and tabs in front of
all its lines that are not void, it has the same blocks, each with its kind, its lines and its span,
and so the same Markdown. -/
theorem blocks_shifted (hlead : IsIndent lead) (text : List Char) :
    (∀ detectDiff, blocks (shifted lead text) detectDiff = blocks text detectDiff) ∧
      ∀ options, Markdown.ofComment options (shifted lead text) =
        Markdown.ofComment options text := by
  have hblocks : ∀ detectDiff, blocks (shifted lead text) detectDiff = blocks text detectDiff := by
    intro detectDiff
    rw [blocks, blocks, lines_shifted hlead, unindent_map_shifted hlead]
  refine ⟨hblocks, fun options => ?_⟩
  rw [Markdown.ofComment, hblocks, Markdown.ofComment]

/-- A space and a tab are put in front of lines that share a tab. One of the lines is blank but not
void. -/
theorem blocks_shifted_mixed :
    let lead := [' ', '\t']
    let text := "\tA diff:\n\n\t  +x\n\t\n\n\tEnd".toList
    IsIndent lead ∧ shifted lead text = " \t\tA diff:\n\n \t\t  +x\n \t\t\n\n \t\tEnd".toList ∧
      (blocks text true).map Block.kind = [.paragraph, .code .diff, .paragraph] ∧
      blocks (shifted lead text) true = blocks text true := by
  intro lead text
  have hlead : IsIndent lead := by simp [lead, IsIndent]
  refine ⟨hlead, ?_, ?_, (blocks_shifted hlead text).1 true⟩
  · decide +kernel
  · decide +kernel

end PackageReadme.Comment
