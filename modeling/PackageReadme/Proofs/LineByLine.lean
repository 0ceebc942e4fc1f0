import PackageReadme.Proofs.Emphasis.Independence
import PackageReadme.Proofs.Fences

/-! Markdown line by line.

A line of a block holds no newline but the one that ends it. Links may have newlines in their titles
and between title and target, but no target stands after the newline that ends a line, so that this
newline is a piece of its own (`pieces_concat_newline`) and emphasizing a line writes one line
(`isEnded_emphasize`). A heading is trimmed and holds no newline at all. So a comment is written
line by line, and what is written around the lines of a block depends on its kind only. Main
statement: `ofComment_line_by_line`. -/
namespace PackageReadme.Markdown
open Comment Emphasis Text

/-! ### The lines of a block -/

/-- The lines that are written for a block. -/
def writtenLines (words : Words) (block : Block) : List Line :=
  match block.kind with
  | .paragraph => block.lines.map (emphasize words) ++ [['\n']]
  | .heading => block.lines.flatMap fun title => ["#### ".toList ++ title ++ ['\n'], ['\n']]
  | .code language =>
    [fence ++ language.tag.toList ++ ['\n']] ++ block.lines.map Line.terminated ++
      [fence ++ ['\n'], ['\n']]

/-- How many lines are written around those of a block: the void line after it, and the fences of
code. -/
def framing : BlockKind → Nat
  | .paragraph => 1
  | .heading => 1
  | .code _ => 3

theorem renderBlock_eq_flatten (words : Words) (block : Block) :
    renderBlock words block = (writtenLines words block).flatten := by
  cases hkind : block.kind with
  | paragraph =>
    simp only [renderBlock, writtenLines, hkind, List.flatten_append, ← List.flatMap_def]
    rfl
  | heading =>
    simp only [renderBlock, writtenLines, hkind, List.flatten_eq_flatMap, List.flatMap_assoc]
    exact List.flatMap_congr fun title _ => by simp
  | code language =>
    simp only [renderBlock, writtenLines, hkind, List.flatten_append, ← List.flatMap_def]
    simp

theorem ofComment_eq_flatten (options : Options) (text : List Char) :
    ofComment options text = ((blocks text options.diffBlocks).flatMap
      (writtenLines options.words)).flatten := by
  rw [List.flatten_eq_flatMap, List.flatMap_assoc]
  exact List.flatMap_congr fun block _ => by rw [renderBlock_eq_flatten, List.flatten_eq_flatMap]

/-- A heading is one line without blanks around it. -/
theorem exists_title_of_mem_blocks {text : List Char} {detectDiff : Bool} {block : Block}
    (hblock : block ∈ blocks text detectDiff) (hkind : block.kind = .heading) :
    ∃ title, block.lines = [title] ∧ IsTrimmed title := by
  have hshows := shows_of_mem_blocks hblock
  rw [Block.Shows, hkind] at hshows
  obtain ⟨line, -, hlines⟩ := hshows
  exact ⟨trim line, hlines, isTrimmed_trim line⟩

/-- A block has as many lines as its span, void lines at the ends aside. -/
theorem length_lines_of_mem_blocks {text : List Char} {detectDiff : Bool} {block : Block}
    (hblock : block ∈ blocks text detectDiff) :
    block.lines.length = (content (block.region (unindent (lines text)))).length := by
  have hshows := shows_of_mem_blocks hblock
  unfold Block.Shows at hshows
  split at hshows
  · rw [hshows.1]
  · obtain ⟨indent, -, hlines⟩ := hshows
    rw [hlines, List.length_map]
  · obtain ⟨line, hbody, hlines⟩ := hshows
    rw [hlines, hbody]
    rfl

/-! ### One newline each -/

theorem isEnded_append_newline {s : List Char} (h : '\n' ∉ s) : Line.IsEnded (s ++ ['\n']) :=
  ⟨s, h, rfl⟩

theorem notMem_of_isTrimmed {line : Line} (hsingle : line.IsSingle) (htrimmed : IsTrimmed line) :
    '\n' ∉ line := by
  intro hmem
  obtain ⟨front, back, hline⟩ := List.append_of_mem hmem
  obtain rfl := hsingle front back hline
  have hlast := htrimmed.last '\n' (by rw [hline]; exact List.getLast?_concat)
  cases hlast

/-- **Emphasizing a line writes one line**: the newline that ends it is in no link and no word, and
nothing else that is written holds a newline. -/
theorem isEnded_emphasize {words : Words} (hwords : ∀ entry ∈ words, '\n' ∉ entry.2) {line : Line}
    (h : line.IsSingle) : Line.IsEnded (emphasize words line) := by
  obtain ⟨front, hfront, hline⟩ := h.isEnded_terminated
  have hmarkup : ∀ c ∈ markup, c ≠ '\n' := List.forall_mem_ne'.mpr (by decide)
  have hwritten : '\n' ∉ (pieces front).flatMap (Piece.render words) := by
    refine List.forall_mem_ne'.mp (forall_mem_flatMap_render hmarkup (fun entry hentry => ?_) ?_)
    · exact List.forall_mem_ne'.mpr (hwords entry hentry)
    · exact List.forall_mem_ne'.mpr hfront
  rw [emphasize, hline, pieces_concat_newline, List.flatMap_append]
  exact isEnded_append_newline hwritten

/-- **A block is written in whole lines.** -/
theorem isEnded_of_mem_writtenLines {words : Words} (hwords : ∀ entry ∈ words, '\n' ∉ entry.2)
    {text : List Char} {detectDiff : Bool} {block : Block}
    (hblock : block ∈ blocks text detectDiff) :
    ∀ line ∈ writtenLines words block, line.IsEnded := by
  have hsingle : ∀ line ∈ block.lines, line.IsSingle :=
    fun line hline => isSingle_of_mem_blocks hblock hline
  have hvoid : Line.IsEnded ['\n'] := isEnded_append_newline List.not_mem_nil
  cases hkind : block.kind with
  | paragraph =>
    simp only [writtenLines, hkind, List.forall_mem_append, List.forall_mem_map,
      List.forall_mem_singleton]
    exact ⟨fun line hline => isEnded_emphasize hwords (hsingle line hline), hvoid⟩
  | heading =>
    obtain ⟨title, hlines, htrimmed⟩ := exists_title_of_mem_blocks hblock hkind
    have htitle : '\n' ∉ title := notMem_of_isTrimmed (hsingle title (by simp [hlines])) htrimmed
    simp only [writtenLines, hkind, hlines, List.flatMap_singleton, List.forall_mem_cons]
    refine ⟨isEnded_append_newline ?_, hvoid, List.forall_mem_nil _⟩
    rw [List.mem_append, not_or]
    exact ⟨by decide, htitle⟩
  | code language =>
    have hopening : '\n' ∉ fence ++ language.tag.toList := by
      cases language <;> decide
    have hclosing : '\n' ∉ fence := by
      decide
    simp only [writtenLines, hkind, List.forall_mem_append, List.forall_mem_map,
      List.forall_mem_cons]
    exact ⟨⟨⟨isEnded_append_newline hopening, List.forall_mem_nil _⟩,
      fun line hline => (hsingle line hline).isEnded_terminated⟩,
      isEnded_append_newline hclosing, hvoid, List.forall_mem_nil _⟩

theorem length_writtenLines {words : Words} {text : List Char} {detectDiff : Bool} {block : Block}
    (hblock : block ∈ blocks text detectDiff) :
    (writtenLines words block).length = block.lines.length + framing block.kind := by
  cases hkind : block.kind with
  | paragraph => simp [writtenLines, hkind, framing]
  | heading =>
    obtain ⟨title, hlines, -⟩ := exists_title_of_mem_blocks hblock hkind
    simp [writtenLines, hkind, hlines, framing]
  | code language =>
    simp only [writtenLines, hkind, List.length_append, List.length_map, List.length_cons,
      List.length_nil, framing]
    omega

/-! ### The lines of a comment -/

/-- **A comment is written line by line**: its Markdown is what is written for its blocks, one after
another, each in lines of its own. These are the lines that are read from the Markdown, every one of
them ended by its only newline. A heading is one line. A block has as many lines as the comment has
in its span, void lines at the ends aside, and each of them makes one line of Markdown; the lines
around them are those that the kind of the block asks for. -/
theorem ofComment_line_by_line (options : Options) (text : List Char)
    (hwords : ∀ entry ∈ options.words, '\n' ∉ entry.2) :
    let bs := blocks text options.diffBlocks
    ofComment options text = (bs.flatMap (writtenLines options.words)).flatten ∧
      lines (ofComment options text) = bs.flatMap (writtenLines options.words) ∧
      (∀ line ∈ lines (ofComment options text), line.IsEnded) ∧
      ∀ block ∈ bs, (block.kind = .heading → block.lines.length = 1) ∧
        block.lines.length = (content (block.region (unindent (lines text)))).length ∧
        (writtenLines options.words block).length = block.lines.length + framing block.kind := by
  intro bs
  have hended : ∀ line ∈ bs.flatMap (writtenLines options.words), line.IsEnded :=
    List.forall_mem_flatMap.mpr fun block hblock => isEnded_of_mem_writtenLines hwords hblock
  have htext : ofComment options text = (bs.flatMap (writtenLines options.words)).flatten :=
    ofComment_eq_flatten ..
  have hlines : lines (ofComment options text) = bs.flatMap (writtenLines options.words) := by
    have hread := lines_flatten_append hended []
    rwa [List.append_nil, ← htext, lines, List.append_nil] at hread
  refine ⟨htext, hlines, fun line hline => hended line (hlines ▸ hline),
    fun block hblock => ⟨fun hkind => ?_, length_lines_of_mem_blocks hblock,
      length_writtenLines hblock⟩⟩
  obtain ⟨title, htitle, -⟩ := exists_title_of_mem_blocks hblock hkind
  rw [htitle]
  rfl

/-- A line that ends in what could be the title of the target below it, a backtick without another,
a heading, and code with a void line in it and a last line that is not ended. -/
theorem ofComment_line_by_line_mixed :
    let text := "A (b)\n./c. Word \x60d\n\nTitle\n\nCode:\n\n\tx\n\n\t  y".toList
    let options : Options := { words := [("Word".toList, "u".toList)] }
    let written : List Line :=
      ["A (b)\n".toList, "[./c](./c). [*Word*](u) \x60d\n".toList, "\n".toList,
      "#### Title\n".toList, "\n".toList, "Code:\n".toList, "\n".toList, "\x60\x60\x60go\n".toList,
      "x\n".toList, "\n".toList, "  y\n".toList, "\x60\x60\x60\n".toList, "\n".toList]
    (∀ entry ∈ options.words, '\n' ∉ entry.2) ∧ lines (ofComment options text) = written ∧
      ∀ line ∈ written, line.IsEnded := by
  intro text options written
  have hwords : ∀ entry ∈ options.words, '\n' ∉ entry.2 := by decide +kernel +zetaReduce
  have hwritten : (blocks text options.diffBlocks).flatMap
      (writtenLines options.words) = written := by
    decide +kernel +zetaReduce
  obtain ⟨-, hlines, hended, -⟩ := ofComment_line_by_line options text hwords
  rw [hlines, hwritten] at hended
  exact ⟨hwords, hlines.trans hwritten, hended⟩

end PackageReadme.Markdown
