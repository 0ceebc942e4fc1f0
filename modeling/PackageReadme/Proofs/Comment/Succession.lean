import PackageReadme.Proofs.Comment.Headings

/-! Which blocks follow one another.

Below a heading stands a void line and then the paragraph that it heads, code is never followed by
code, and what starts a comment is no heading. The rules of `Reads` give each of these at once for
the own lines of blocks; stretching the spans changes no kind, and only the first block starts
elsewhere than its own lines (`getElem?_tile`). Main statement: `blocks_succession`. -/
namespace PackageReadme.Comment
open Text

/-! ### What is read next -/

/-- A line of text right below a heading and its void line starts a paragraph. -/
theorem Reads.exists_paragraph {detectDiff afterVoid : Bool} {index : Nat} {line : Line}
    {rest : List Line} {bs : List Block}
    (h : Reads detectDiff afterVoid true index (line :: rest) bs)
    (hline : goesOnWithParagraph line = true) :
    ∃ more later stop, bs = ⟨.paragraph, line :: more, index, stop⟩ :: later := by
  obtain ⟨hsolid, hunindented⟩ := goesOnWithParagraph_iff.mp hline
  cases h with
  | void hvoid =>
    rw [hsolid] at hvoid
    cases hvoid
  | code hindented =>
    rw [hunindented] at hindented
    cases hindented
  | paragraph => exact ⟨_, _, _, rfl⟩

/-- No code comes first where the next line that is not void does not go on with code. -/
theorem Reads.head_ne_code {detectDiff afterVoid afterHeading : Bool} {index : Nat} {ls : List Line}
    {bs : List Block} (h : Reads detectDiff afterVoid afterHeading index ls bs)
    (hstop : ∀ next after, ls.dropWhile Line.isVoid = next :: after → goesOnWithCode next = false) :
    ∀ block, bs[0]? = some block → ∀ language, block.kind ≠ .code language := by
  induction h with
  | done => simp
  | void hvoid _ ih =>
    rw [List.dropWhile_cons_of_pos hvoid] at hstop
    exact ih hstop
  | @code _ _ _ line more rest _ hindented _ hbody _ _ _ =>
    obtain ⟨first, tail, hfirst, hsolid⟩ := hbody.first
    obtain ⟨rfl, rfl⟩ := List.cons.inj hfirst
    have hcode := hstop line (more ++ rest) (List.dropWhile_cons_of_neg (by simp [hsolid]))
    rw [goesOnWithCode, hindented, Bool.or_true] at hcode
    cases hcode
  | heading => simp
  | paragraph => simp

/-- No heading comes first on a line that is not void, unless a void line stands before it. -/
theorem Reads.head_ne_heading {detectDiff afterHeading : Bool} {index : Nat} {line : Line}
    {rest : List Line} {bs : List Block}
    (h : Reads detectDiff false afterHeading index (line :: rest) bs)
    (hsolid : line.isVoid = false) : ∀ block, bs[0]? = some block → block.kind ≠ .heading := by
  cases h with
  | void hvoid =>
    rw [hsolid] at hvoid
    cases hvoid
  | code => simp
  | paragraph => simp

/-! ### Blocks by their own lines -/

/-- Two lines below a heading starts a paragraph. -/
theorem Reads.followed {detectDiff afterVoid afterHeading : Bool} {index : Nat} {ls : List Line}
    {bs : List Block} (h : Reads detectDiff afterVoid afterHeading index ls bs) (above : List Line)
    (hindex : index = above.length) {k : Nat} {block : Block} (hblock : bs[k]? = some block)
    (hkind : block.kind = .heading) :
    ∃ next line, bs[k + 1]? = some next ∧ next.kind = .paragraph ∧ next.start = block.start + 2 ∧
      (above ++ ls)[block.start + 2]? = some line ∧ next.lines.head? = some line := by
  induction h generalizing above k with
  | done => cases hblock
  | void _ _ ih =>
    rw [List.append_cons]
    exact ih _ (by simp [hindex]) hblock
  | code _ _ _ _ _ ih =>
    cases k with
    | zero =>
      cases hblock
      cases hkind
    | succ k =>
      rw [← List.append_assoc]
      exact ih _ (by simp [hindex]) hblock
  | @heading _ line title gap next rest _ _ _ _ hnext hread ih =>
    cases k with
    | zero =>
      cases hblock
      obtain ⟨more, later, stop, rfl⟩ := hread.exists_paragraph hnext
      exact ⟨_, next, rfl, rfl, rfl, by simp [hindex], rfl⟩
    | succ k =>
      rw [List.append_cons, List.append_cons]
      exact ih _ (by simp [hindex]) hblock
  | paragraph _ _ _ _ ih =>
    cases k with
    | zero =>
      cases hblock
      cases hkind
    | succ k =>
      rw [← List.append_assoc]
      exact ih _ (by simp [hindex]) hblock

/-- Code is not followed by code. -/
theorem Reads.ne_code_of_code {detectDiff afterVoid afterHeading : Bool} {index : Nat}
    {ls : List Line} {bs : List Block} (h : Reads detectDiff afterVoid afterHeading index ls bs)
    {k : Nat} {block next : Block} (hblock : bs[k]? = some block) (hnext : bs[k + 1]? = some next)
    {language : Language} (hkind : block.kind = .code language) :
    ∀ language, next.kind ≠ .code language := by
  induction h generalizing k with
  | done => cases hblock
  | void _ _ ih => exact ih hblock hnext
  | code _ _ _ hstop hread ih =>
    cases k with
    | zero => exact hread.head_ne_code hstop next hnext
    | succ k => exact ih hblock hnext
  | heading _ _ _ _ _ ih =>
    cases k with
    | zero =>
      cases hblock
      cases hkind
    | succ k => exact ih hblock hnext
  | paragraph _ _ _ _ ih =>
    cases k with
    | zero =>
      cases hblock
      cases hkind
    | succ k => exact ih hblock hnext

/-! ### Blocks by their spans -/

theorem getElem?_stretch (count : Nat) (bs : List Block) (k : Nat) :
    (stretch count bs)[k]? =
      bs[k]?.map fun own => { own with stop := (bs[k + 1]?.map Block.start).getD count } := by
  fun_induction stretch count bs generalizing k with
  | case1 => rfl
  | case2 last => cases k <;> rfl
  | case3 block next rest ih =>
    cases k with
    | zero => rfl
    | succ k => exact ih k

/-- A span reaches from the own lines of a block to those of the next, and the first span starts
with the lines. -/
theorem getElem?_tile (count : Nat) (bs : List Block) (k : Nat) :
    (tile count bs)[k]? = bs[k]?.map fun own =>
      { own with
        start := if k = 0 then 0 else own.start
        stop := (bs[k + 1]?.map Block.start).getD count } := by
  cases bs with
  | nil => rfl
  | cons first rest =>
    rw [tile, getElem?_stretch]
    cases k <;> rfl

/-- The blocks that the scan reads, before their spans are stretched. -/
def ownBlocks (text : List Char) (detectDiff : Bool) : List Block :=
  scan detectDiff 0 false false 0 (unindent (lines text))

theorem getElem?_blocks (text : List Char) (detectDiff : Bool) (k : Nat) :
    (blocks text detectDiff)[k]? = (ownBlocks text detectDiff)[k]?.map fun own =>
      { own with
        start := if k = 0 then 0 else own.start
        stop := ((ownBlocks text detectDiff)[k + 1]?.map Block.start).getD
          (unindent (lines text)).length } :=
  getElem?_tile _ _ k

theorem reads_ownBlocks (text : List Char) (detectDiff : Bool) :
    Reads detectDiff false false 0 (unindent (lines text)) (ownBlocks text detectDiff) :=
  reads_scan detectDiff false false 0 (unindent (lines text))

/-! ### Blocks of a comment -/

/-- Line `i` is the one line of a heading, and the other lines of its span are void. -/
structure Block.StandsOn (block : Block) (ls : List Line) (i : Nat) : Prop where
  start : block.start ≤ i
  stop : i < block.stop
  line : ∃ line, ls[i]? = some line ∧ line.isVoid = false ∧ block.lines = [trim line]
  only : OnlySolid ls block.start block.stop i

/-- A heading is followed by a paragraph two lines below its own line. -/
theorem exists_followed {text : List Char} {detectDiff : Bool} {k : Nat} {head : Block}
    (hhead : (blocks text detectDiff)[k]? = some head) (hkind : head.kind = .heading) :
    ∃ i next line, head.StandsOn (unindent (lines text)) i ∧
      (blocks text detectDiff)[k + 1]? = some next ∧
      next.kind = .paragraph ∧ next.start = i + 2 ∧ (unindent (lines text))[i + 2]? = some line ∧
      next.lines.head? = some line := by
  have hshows := shows_of_mem_blocks (List.mem_of_getElem? hhead)
  have hread := reads_ownBlocks text detectDiff
  rw [getElem?_blocks] at hhead
  obtain ⟨own, hown, rfl⟩ := Option.map_eq_some_iff.mp hhead
  obtain ⟨next, line, hnext, hparagraph, hstart, hline, hlines⟩ := hread.followed [] rfl hown hkind
  have habove : false = true → EndsInVoid [] := fun h => absurd h (by simp)
  obtain ⟨title, htitle, hstands⟩ := hread.stands rfl habove own (List.mem_of_getElem? hown) hkind
  obtain ⟨headLine, hheadLine, hsolid, -, hheading⟩ := hstands.own
  rw [List.nil_append] at hline hheadLine
  -- the span of the heading ends where the paragraph starts
  have hspan : own.start <
      ((ownBlocks text detectDiff)[k + 1]?.map Block.start).getD
        (unindent (lines text)).length := by
    rw [hnext, Option.map_some, Option.getD_some, hstart]
    omega
  have hfrom : (if k = 0 then 0 else own.start) ≤ own.start := by
    split <;> omega
  have hwide := getElem?_blocks text detectDiff (k + 1)
  rw [hnext, Option.map_some] at hwide
  refine ⟨own.start, _, line, ⟨hfrom, hspan, ⟨headLine, hheadLine, hsolid, ?_⟩, ?_⟩, hwide,
    hparagraph, hstart, hline, hlines⟩
  · rw [htitle, heading?_eq_some hheading]
  · exact onlySolid_of_shows hshows hkind hfrom hspan hheadLine hsolid

/-- **Which blocks follow one another.** A heading is followed by a paragraph, and the first line of
that is the second one below the line of the heading. Code is not followed by code. If the first
line of the comment is not void, the first block is no heading. -/
theorem blocks_succession (text : List Char) (detectDiff : Bool) :
    let ls := unindent (lines text)
    let bs := blocks text detectDiff
    (∀ (k : Nat) (head : Block), bs[k]? = some head → head.kind = .heading →
      ∃ (i : Nat) (next : Block) (line : Line), head.StandsOn ls i ∧ bs[k + 1]? = some next ∧
        next.kind = .paragraph ∧ next.start = i + 2 ∧ ls[i + 2]? = some line ∧
        next.lines.head? = some line) ∧
      (∀ (k : Nat) (code next : Block) (language other : Language), bs[k]? = some code →
        bs[k + 1]? = some next →
        code.kind = .code language → next.kind ≠ .code other) ∧
      (∀ (first : Line) (rest : List Line), ls = first :: rest → first.isVoid = false →
        ∀ block : Block, bs[0]? = some block → block.kind ≠ .heading) := by
  intro ls bs
  have hread := reads_ownBlocks text detectDiff
  refine ⟨fun k head hhead hkind => exists_followed hhead hkind,
    fun k code next language other hcode hnext hkind => ?_,
    fun first rest hls hsolid block hblock => ?_⟩
  · rw [getElem?_blocks] at hcode hnext
    obtain ⟨own, hown, rfl⟩ := Option.map_eq_some_iff.mp hcode
    obtain ⟨ownNext, hownNext, rfl⟩ := Option.map_eq_some_iff.mp hnext
    have hkinds : ∀ other, ownNext.kind ≠ .code other := hread.ne_code_of_code hown hownNext hkind
    exact hkinds other
  · rw [getElem?_blocks] at hblock
    obtain ⟨own, hown, rfl⟩ := Option.map_eq_some_iff.mp hblock
    rw [show unindent (lines text) = first :: rest from hls] at hread
    exact hread.head_ne_heading hsolid own hown

end PackageReadme.Comment
