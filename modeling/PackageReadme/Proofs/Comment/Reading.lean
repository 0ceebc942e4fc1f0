import Mathlib.Data.List.DropRight
import Mathlib.Data.List.TakeWhile
import PackageReadme.Comment.Block

/-! How the lines of a comment are read, as rules.

`Reads` says once what the scan can do with the lines that are left: pass a void line, or take the
lines of a whole block off the front. Each rule states all that has to hold of the lines for it to
be used. `reads_scan`: the scan follows the rules, whatever the lines. What holds of all blocks is
then shown by induction on the rules, with neither the lines to skip nor the search for the end of a
block in sight. -/
namespace PackageReadme.Comment
open Text

/-! ### Void lines at an end -/

theorem dropVoidTail_eq_rdropWhile (ls : List Line) :
    dropVoidTail ls = ls.rdropWhile Line.isVoid := by
  induction ls using List.reverseRecOn with
  | nil => rfl
  | append_singleton ls line ih =>
    rw [List.rdropWhile_concat, ← ih]
    clear ih
    induction ls with
    | nil => rfl
    | cons first rest ih =>
      rw [List.cons_append, dropVoidTail, ih, dropVoidTail]
      by_cases hvoid : line.isVoid = true
      · simp only [if_pos hvoid]
      · simp only [if_neg hvoid]
        cases rest <;> rfl

/-- The void lines that are dropped stand at the end. -/
theorem exists_dropVoidTail_append (ls : List Line) :
    ∃ gap, ls = dropVoidTail ls ++ gap ∧ ∀ line ∈ gap, line.isVoid = true := by
  refine ⟨ls.rtakeWhile Line.isVoid, ?_, fun line hline => List.mem_rtakeWhile_imp hline⟩
  rw [dropVoidTail_eq_rdropWhile, List.rdropWhile_append_rtakeWhile]

/-- Starts and ends with a line that is not void. -/
structure IsBody (body : List Line) : Prop where
  first : ∃ line rest, body = line :: rest ∧ line.isVoid = false
  last : ∃ front line, body = front ++ [line] ∧ line.isVoid = false

theorem isBody_of_forall {line : Line} {rest : List Line}
    (h : ∀ l ∈ line :: rest, l.isVoid = false) : IsBody (line :: rest) where
  first := ⟨line, rest, rfl, h line (List.mem_cons_self ..)⟩
  last := ⟨_, _, (List.dropLast_append_getLast (List.cons_ne_nil line rest)).symm,
    h _ (List.getLast_mem (List.cons_ne_nil line rest))⟩

theorem isBody_cons_dropVoidTail {line : Line} (hvoid : line.isVoid = false) (ls : List Line) :
    IsBody (line :: dropVoidTail ls) := by
  refine ⟨⟨line, _, rfl, hvoid⟩, ?_⟩
  rw [dropVoidTail_eq_rdropWhile]
  by_cases hnil : ls.rdropWhile Line.isVoid = []
  · exact ⟨[], line, by rw [hnil]; rfl, hvoid⟩
  · have hlast := List.rdropWhile_last_not Line.isVoid ls hnil
    refine ⟨line :: (ls.rdropWhile Line.isVoid).dropLast, _, ?_, by simpa using hlast⟩
    rw [List.cons_append, List.dropLast_append_getLast]

/-! ### The scan without lines to skip -/

theorem scan_nil (detectDiff afterVoid afterHeading : Bool) (skip index : Nat) :
    scan detectDiff skip afterVoid afterHeading index [] = [] := by
  rw [scan]

/-- Lines to skip are left out. -/
theorem scan_skip (detectDiff afterVoid afterHeading : Bool) (skip index : Nat) (ls : List Line) :
    scan detectDiff skip afterVoid afterHeading index ls =
      scan detectDiff 0 afterVoid afterHeading (index + skip) (ls.drop skip) := by
  induction skip generalizing index ls with
  | zero => rfl
  | succ skip ih =>
    cases ls with
    | nil => rw [List.drop_nil, scan_nil, scan_nil]
    | cons line rest =>
      rw [scan, ih, List.drop_succ_cons]
      congr 1
      omega

/-- After its first line, the lines of a body are skipped. -/
theorem scan_skip_body (detectDiff afterVoid afterHeading : Bool) (index : Nat) (line : Line)
    {rest more after : List Line} (h : rest = more ++ after) :
    scan detectDiff ((line :: more).length - 1) afterVoid afterHeading (index + 1) rest =
      scan detectDiff 0 afterVoid afterHeading (index + (line :: more).length) after := by
  have hindex : index + 1 + more.length = index + (line :: more).length := by
    rw [List.length_cons]
    omega
  rw [scan_skip, List.length_cons, Nat.add_sub_cancel, hindex, h, List.drop_left, List.length_cons]

/-! ### Rules -/

/-- The lines from line `index` on read as blocks, after a void line or a heading or neither. -/
inductive Reads (detectDiff : Bool) :
    (afterVoid afterHeading : Bool) → (index : Nat) → List Line → List Block → Prop where
  | done {afterVoid afterHeading index} : Reads detectDiff afterVoid afterHeading index [] []
  | void {afterVoid afterHeading index line rest blocks} : line.isVoid = true →
      Reads detectDiff true afterHeading (index + 1) rest blocks →
      Reads detectDiff afterVoid afterHeading index (line :: rest) blocks
  /-- Code reaches up to the last line that is not void before the next text. -/
  | code {afterVoid afterHeading index line more rest blocks} : line.isIndented = true →
      (∀ l ∈ more, goesOnWithCode l = true) → IsBody (line :: more) →
      (∀ next after, rest.dropWhile Line.isVoid = next :: after → goesOnWithCode next = false) →
      Reads detectDiff afterVoid false (index + (line :: more).length) rest blocks →
      Reads detectDiff afterVoid afterHeading index (line :: more ++ rest)
        (⟨.code (codeLanguage detectDiff (line :: more)), unindent (line :: more), index,
          index + (line :: more).length⟩ :: blocks)
  | heading {index line title gap next rest blocks} : goesOnWithParagraph line = true →
      heading? line = some title → gap.isVoid = true → goesOnWithParagraph next = true →
      Reads detectDiff true true (index + 2) (next :: rest) blocks →
      Reads detectDiff true false index (line :: gap :: next :: rest)
        (⟨.heading, [title], index, index + 1⟩ :: blocks)
  /-- A paragraph reaches up to the next line that is void or indented, and does not start with a
  line that could be a heading there. -/
  | paragraph {afterVoid afterHeading index line more rest blocks} :
      (∀ l ∈ line :: more, goesOnWithParagraph l = true) →
      (∀ next after, rest = next :: after → goesOnWithParagraph next = false) →
      ((afterVoid && !afterHeading && textFollowsVoid (more ++ rest)) = true →
        heading? line = none) →
      Reads detectDiff false false (index + (line :: more).length) rest blocks →
      Reads detectDiff afterVoid afterHeading index (line :: more ++ rest)
        (⟨.paragraph, line :: more, index, index + (line :: more).length⟩ :: blocks)

/-! ### The scan follows the rules -/

theorem goesOnWithParagraph_iff {line : Line} :
    goesOnWithParagraph line = true ↔ line.isVoid = false ∧ line.isIndented = false := by
  simp [goesOnWithParagraph]

theorem head_dropWhile_eq_false {α : Type} {p : α → Bool} {ls rest : List α} {next : α}
    (h : ls.dropWhile p = next :: rest) : p next = false := by
  have hhead := List.head?_dropWhile_not p ls
  rw [h] at hhead
  simpa using hhead

theorem scan_void (detectDiff afterVoid afterHeading : Bool) (index : Nat) {line : Line}
    (rest : List Line) (hvoid : line.isVoid = true) :
    scan detectDiff 0 afterVoid afterHeading index (line :: rest) =
      scan detectDiff 0 true afterHeading (index + 1) rest := by
  rw [scan]
  simp only [hvoid, if_true]

/-- The lines of code come off the front, and neither void lines nor code are left that it could
have gone on with. -/
theorem exists_scan_code (detectDiff afterVoid afterHeading : Bool) (index : Nat) {line : Line}
    (rest : List Line) (hvoid : line.isVoid = false) (hindented : line.isIndented = true) :
    ∃ more after, rest = more ++ after ∧ (∀ l ∈ more, goesOnWithCode l = true) ∧
      IsBody (line :: more) ∧
      (∀ next later, after.dropWhile Line.isVoid = next :: later → goesOnWithCode next = false) ∧
      scan detectDiff 0 afterVoid afterHeading index (line :: rest) =
        ⟨.code (codeLanguage detectDiff (line :: more)), unindent (line :: more), index,
          index + (line :: more).length⟩ ::
          scan detectDiff 0 afterVoid false (index + (line :: more).length) after := by
  obtain ⟨gap, hgap, hgapVoid⟩ := exists_dropVoidTail_append (rest.takeWhile goesOnWithCode)
  have hrest : rest = dropVoidTail (rest.takeWhile goesOnWithCode) ++
      (gap ++ rest.dropWhile goesOnWithCode) := by
    rw [← List.append_assoc, ← hgap, List.takeWhile_append_dropWhile]
  refine ⟨_, _, hrest, fun l hl => ?_, isBody_cons_dropVoidTail hvoid _,
    fun next later hnext => ?_, ?_⟩
  · have hmem : l ∈ rest.takeWhile goesOnWithCode := by
      rw [hgap]
      exact List.mem_append_left gap hl
    exact List.mem_takeWhile_imp hmem
  · rw [List.dropWhile_append_of_pos hgapVoid] at hnext
    -- a line at which code stops is not void, so no more lines are dropped before it
    cases hstop : rest.dropWhile goesOnWithCode with
    | nil =>
      rw [hstop] at hnext
      cases hnext
    | cons stop beyond =>
      have hstopped : goesOnWithCode stop = false := head_dropWhile_eq_false hstop
      have hsolid : ¬ stop.isVoid = true := by
        intro h
        rw [goesOnWithCode, h] at hstopped
        cases hstopped
      rw [hstop, List.dropWhile_cons_of_neg hsolid] at hnext
      cases hnext
      exact hstopped
  · rw [scan]
    simp only [hvoid, hindented, Bool.false_eq_true, if_false, if_true]
    rw [scan_skip_body detectDiff afterVoid false index line hrest]

/-- The title of a line that stands where a heading may stand and passes as one. -/
def headingAt? (afterVoid afterHeading : Bool) (line : Line) (rest : List Line) :
    Option (List Char) :=
  if afterVoid && !afterHeading && textFollowsVoid rest then heading? line else none

theorem scan_heading (detectDiff : Bool) {afterVoid afterHeading : Bool} (index : Nat) {line : Line}
    {rest : List Line} {title : List Char} (hline : goesOnWithParagraph line = true)
    (htitle : headingAt? afterVoid afterHeading line rest = some title) :
    scan detectDiff 0 afterVoid afterHeading index (line :: rest) =
      ⟨.heading, [title], index, index + 1⟩ ::
        scan detectDiff 0 afterVoid true (index + 2) (rest.drop 1) := by
  obtain ⟨hvoid, hindented⟩ := goesOnWithParagraph_iff.mp hline
  rw [headingAt?] at htitle
  rw [scan]
  simp only [hvoid, hindented, htitle, Bool.false_eq_true, if_false]
  rw [scan_skip]

theorem headingAt?_eq_some {afterVoid afterHeading : Bool} {line : Line} {rest : List Line}
    {title : List Char} (h : headingAt? afterVoid afterHeading line rest = some title) :
    afterVoid = true ∧ afterHeading = false ∧ heading? line = some title ∧
      ∃ gap next after, rest = gap :: next :: after ∧ gap.isVoid = true ∧
        goesOnWithParagraph next = true := by
  unfold headingAt? at h
  split at h
  · rename_i hplace
    simp only [Bool.and_eq_true, Bool.not_eq_true'] at hplace
    obtain ⟨⟨hv, hh⟩, hfollows⟩ := hplace
    refine ⟨hv, hh, h, ?_⟩
    match rest, hfollows with
    | gap :: next :: after, hfollows =>
      simp only [textFollowsVoid, Bool.and_eq_true, Bool.not_eq_true'] at hfollows
      exact ⟨gap, next, after, rfl, hfollows.1.1,
        goesOnWithParagraph_iff.mpr ⟨hfollows.1.2, hfollows.2⟩⟩
  · cases h

/-- The lines of a paragraph come off the front, and the line after them could not go on with it. -/
theorem exists_scan_paragraph (detectDiff : Bool) {afterVoid afterHeading : Bool} (index : Nat)
    {line : Line} {rest : List Line} (hline : goesOnWithParagraph line = true)
    (htitle : headingAt? afterVoid afterHeading line rest = none) :
    ∃ more after, rest = more ++ after ∧ (∀ l ∈ line :: more, goesOnWithParagraph l = true) ∧
      (∀ next later, after = next :: later → goesOnWithParagraph next = false) ∧
      scan detectDiff 0 afterVoid afterHeading index (line :: rest) =
        ⟨.paragraph, line :: more, index, index + (line :: more).length⟩ ::
          scan detectDiff 0 false false (index + (line :: more).length) after := by
  have hrest : rest = rest.takeWhile goesOnWithParagraph ++ rest.dropWhile goesOnWithParagraph :=
    List.takeWhile_append_dropWhile.symm
  refine ⟨_, _, hrest, fun l hl => ?_, fun next later hnext => head_dropWhile_eq_false hnext, ?_⟩
  · rcases List.mem_cons.mp hl with rfl | hl
    · exact hline
    · exact List.mem_takeWhile_imp hl
  · obtain ⟨hvoid, hindented⟩ := goesOnWithParagraph_iff.mp hline
    rw [headingAt?] at htitle
    rw [scan]
    simp only [hvoid, hindented, htitle, Bool.false_eq_true, if_false]
    rw [scan_skip_body detectDiff false false index line hrest]

/-- **The scan follows the rules.** -/
theorem reads_scan (detectDiff afterVoid afterHeading : Bool) (index : Nat) (ls : List Line) :
    Reads detectDiff afterVoid afterHeading index ls
      (scan detectDiff 0 afterVoid afterHeading index ls) := by
  -- on the number of lines left: every rule takes at least one off
  induction hn : ls.length using Nat.strongRecOn generalizing afterVoid afterHeading index ls with
  | ind n ih =>
    cases ls with
    | nil =>
      rw [scan_nil]
      exact .done
    | cons line rest =>
      subst hn
      cases hvoid : line.isVoid with
      | true =>
        rw [scan_void _ _ _ _ _ hvoid]
        exact .void hvoid (ih _ (Nat.lt_succ_self _) _ _ _ _ rfl)
      | false =>
        cases hindented : line.isIndented with
        | true =>
          obtain ⟨more, after, rfl, hmore, hbody, hstop, hscan⟩ :=
            exists_scan_code detectDiff afterVoid afterHeading index rest hvoid hindented
          rw [hscan]
          refine .code hindented hmore hbody hstop (ih _ ?_ _ _ _ _ rfl)
          simp only [List.length_cons, List.length_append]
          omega
        | false =>
          have hline := goesOnWithParagraph_iff.mpr ⟨hvoid, hindented⟩
          cases htitle : headingAt? afterVoid afterHeading line rest with
          | some title =>
            rw [scan_heading detectDiff index hline htitle]
            obtain ⟨rfl, rfl, hheading, gap, next, after, rfl, hgap, hnext⟩ :=
              headingAt?_eq_some htitle
            exact .heading hline hheading hgap hnext (ih _ (by simp) _ _ _ _ rfl)
          | none =>
            obtain ⟨more, after, rfl, hmore, hstop, hscan⟩ :=
              exists_scan_paragraph detectDiff index hline htitle
            rw [hscan]
            refine .paragraph hmore hstop (fun hplace => ?_) (ih _ ?_ _ _ _ _ rfl)
            · rw [headingAt?, if_pos hplace] at htitle
              exact htitle
            · simp only [List.length_cons, List.length_append]
              omega

end PackageReadme.Comment
