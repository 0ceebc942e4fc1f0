import PackageReadme.Markdown
import PackageReadme.Proofs.Comment.Tiling
import PackageReadme.Proofs.Emphasis.Characters
import PackageReadme.Proofs.Text.Lines

/-! Code can be read back from Markdown.

`readCode` reads Markdown line by line: a fence with a language opens a block, and the next bare
fence closes it. A comment without backticks has no line that could be taken for a fence: paragraphs
and headings are written in its own characters, those of the URLs that words are given, and a few
marks (`forall_mem_emphasize`), and code is copied. So the fences that are read are those that were
written, and what stands between them is the code (`readCode_ofComment`). -/
namespace PackageReadme

/-! ### The characters of blocks -/

namespace Comment
open Text

theorem isSuffix_of_mem_unindent {ls : List Line} {line : Line} (h : line ∈ unindent ls) :
    ∃ source ∈ ls, line <:+ source := by
  obtain ⟨source, hsource, rfl⟩ := List.mem_map.mp h
  refine ⟨source, hsource, ?_⟩
  split
  · exact List.suffix_refl source
  · exact List.drop_suffix _ source

theorem trim_isInfix (line : Line) : trim line <:+: line :=
  (dropTail_isPrefix _ _).isInfix.trans (List.dropWhile_suffix _).isInfix

theorem mem_of_mem_content {ls : List Line} {line : Line} (h : line ∈ content ls) : line ∈ ls :=
  (List.dropWhile_suffix _).subset ((List.rdropWhile_prefix _ _).subset h)

/-- What a block shows is part of the lines that stand in its span. -/
theorem Block.Shows.isInfix {block : Block} {body : List Line} (h : block.Shows body) {line : Line}
    (hline : line ∈ block.lines) : ∃ source ∈ body, line <:+: source := by
  unfold Block.Shows at h
  split at h
  · rw [h.1] at hline
    exact ⟨line, hline, List.infix_refl line⟩
  · obtain ⟨indent, -, hlines⟩ := h
    rw [hlines] at hline
    obtain ⟨source, hsource, rfl⟩ := List.mem_map.mp hline
    refine ⟨source, hsource, ?_⟩
    split
    · exact List.infix_refl source
    · exact (List.drop_suffix _ source).isInfix
  · obtain ⟨source, rfl, hlines⟩ := h
    rw [hlines] at hline
    rw [List.mem_singleton.mp hline]
    exact ⟨source, List.mem_singleton_self source, trim_isInfix source⟩

/-- **A line of a block is part of a line of the comment.** -/
theorem isInfix_of_mem_blocks {text : List Char} {detectDiff : Bool} {block : Block}
    (hblock : block ∈ blocks text detectDiff) {line : Line} (hline : line ∈ block.lines) :
    ∃ source ∈ lines text, line <:+: source := by
  obtain ⟨shown, hshown, hpart⟩ := (shows_of_mem_blocks hblock).isInfix hline
  have hmem : shown ∈ unindent (lines text) := by
    have hregion := mem_of_mem_content hshown
    rw [Block.region, List.extract_eq_take_drop] at hregion
    exact List.mem_of_mem_drop (List.mem_of_mem_take hregion)
  obtain ⟨source, hsource, hsuffix⟩ := isSuffix_of_mem_unindent hmem
  exact ⟨source, hsource, hpart.trans hsuffix.isInfix⟩

theorem isSingle_of_mem_blocks {text : List Char} {detectDiff : Bool} {block : Block}
    (hblock : block ∈ blocks text detectDiff) {line : Line} (hline : line ∈ block.lines) :
    line.IsSingle := by
  obtain ⟨source, hsource, hpart⟩ := isInfix_of_mem_blocks hblock hline
  exact (isSingle_of_mem_lines hsource).of_isInfix hpart

end Comment

/-! ### Reading code -/

namespace Markdown
open Comment Emphasis Text

structure Code where
  language : Language
  lines : List Line
  deriving DecidableEq, Repr

/-- The language of a line that opens a code block. -/
def opening? (line : Line) : Option Language :=
  if line = "```go\n".toList then some .go else if line = "```diff\n".toList
    then some .diff else none

def isClosing (line : Line) : Bool :=
  line = "```\n".toList

/-- The code in the lines of a Markdown text, with a code block that is open already; none if one is
open in the end. -/
def readCode : (opened : Option Code) → List Line → Option (List Code)
  | none, [] => some []
  | some _, [] => none
  | none, line :: rest => readCode ((opening? line).map fun language => ⟨language, []⟩) rest
  | some code, line :: rest =>
    if isClosing line then (readCode none rest).map (code :: ·)
    else readCode (some { code with lines := code.lines ++ [line] }) rest

/-- The code that a block of a comment shows, its lines all ended. -/
def code? (block : Block) : Option Code :=
  match block.kind with
  | .code language => some ⟨language, block.lines.map Line.terminated⟩
  | _ => none

theorem opening?_eq_none {line : Line} (h : '\x60' ∉ line) : opening? line = none := by
  unfold opening?
  rw [if_neg, if_neg]
  · rintro rfl
    exact h (by decide)
  · rintro rfl
    exact h (by decide)

theorem isClosing_eq_false {line : Line} (h : '\x60' ∉ line) : isClosing line = false := by
  refine decide_eq_false ?_
  rintro rfl
  exact h (by decide)

/-- Lines without backticks are passed over outside of code. -/
theorem readCode_none_append {ls : List Line} (h : ∀ line ∈ ls, '\x60' ∉ line) (rest : List Line) :
    readCode none (ls ++ rest) = readCode none rest := by
  induction ls with
  | nil => rfl
  | cons line ls ih =>
    obtain ⟨hline, hls⟩ := List.forall_mem_cons.mp h
    rw [List.cons_append, readCode, opening?_eq_none hline]
    exact ih hls

/-- Lines without backticks go on with code that is open. -/
theorem readCode_some_append {ls : List Line} (h : ∀ line ∈ ls, '\x60' ∉ line) (code : Code)
    (rest : List Line) :
    readCode (some code) (ls ++ rest) = readCode
      (some { code with lines := code.lines ++ ls }) rest := by
  induction ls generalizing code with
  | nil => rw [List.nil_append, List.append_nil]
  | cons line ls ih =>
    obtain ⟨hline, hls⟩ := List.forall_mem_cons.mp h
    rw [List.cons_append, readCode, isClosing_eq_false hline, if_neg Bool.false_ne_true, ih hls,
      List.append_assoc, List.singleton_append]

/-- **Code between fences is read**, whatever its lines, as long as they hold no backtick. -/
theorem readCode_fenced (language : Language) {ls : List Line} (h : ∀ line ∈ ls, '\x60' ∉ line)
    (rest : List Line) :
    readCode none ((fence ++ language.tag.toList ++ ['\n']) :: (ls ++ (fence ++ ['\n']) :: rest)) =
      (readCode none rest).map (⟨language, ls⟩ :: ·) := by
  have hopening : opening? (fence ++ language.tag.toList ++ ['\n']) = some language := by
    cases language <;> rfl
  have hclosing : isClosing (fence ++ ['\n']) = true := rfl
  rw [readCode, hopening, Option.map_some, readCode_some_append h, readCode, if_pos hclosing]
  rfl

/-! ### What is written is read -/

/-- What reading a comment's Markdown needs of a block: its lines are lines, and they hold no
backtick. -/
structure Fenceless (block : Block) : Prop where
  isSingle : ∀ line ∈ block.lines, line.IsSingle
  noBacktick : ∀ line ∈ block.lines, '\x60' ∉ line

theorem notMem_terminated {line : Line} (h : '\x60' ∉ line) : '\x60' ∉ line.terminated := by
  unfold Line.terminated
  split
  · exact h
  · simpa using h

theorem lines_renderBlock_code (words : Words) {block : Block} {language : Language}
    (hkind : block.kind = .code language) (h : ∀ line ∈ block.lines, line.IsSingle)
    (rest : List Char) :
    lines (renderBlock words block ++ rest) =
      (fence ++ language.tag.toList ++ ['\n']) ::
        (block.lines.map Line.terminated ++ (fence ++ ['\n']) :: ['\n'] :: lines rest) := by
  have hopening : '\n' ∉ fence ++ language.tag.toList := by
    cases language <;> decide
  have hclosing : '\n' ∉ fence := by decide
  simp only [renderBlock, hkind, List.append_assoc, List.cons_append, List.nil_append]
  rw [← List.append_assoc, lines_append_cons hopening, lines_flatMap_terminated h,
    lines_append_cons hclosing, lines, if_pos rfl, List.append_assoc]

theorem notMem_emphasize {words : Words} (hwords : ∀ entry ∈ words, '\x60' ∉ entry.2) {line : Line}
    (h : '\x60' ∉ line) : '\x60' ∉ emphasize words line := by
  have hmarkup : ∀ c ∈ markup, c ≠ '\x60' := List.forall_mem_ne'.mpr (by decide)
  refine List.forall_mem_ne'.mp (forall_mem_emphasize hmarkup (fun entry hentry => ?_) ?_)
  · exact List.forall_mem_ne'.mpr (hwords entry hentry)
  · exact List.forall_mem_ne'.mpr (notMem_terminated h)

/-- Text is written in whole lines and without backticks. -/
theorem renderBlock_of_code?_eq_none {words : Words} (hwords : ∀ entry ∈ words, '\x60' ∉ entry.2)
    {block : Block} (hblock : ∀ line ∈ block.lines, '\x60' ∉ line) (hcode : code? block = none) :
    Whole (renderBlock words block) ∧ '\x60' ∉ renderBlock words block := by
  cases hkind : block.kind with
  | paragraph =>
    simp only [renderBlock, hkind]
    refine ⟨.inr ⟨_, rfl⟩, ?_⟩
    simp only [List.mem_append, List.mem_flatMap, not_or, not_exists, not_and]
    exact ⟨fun line hline => notMem_emphasize hwords (hblock line hline), by decide⟩
  | heading =>
    simp only [renderBlock, hkind]
    refine ⟨whole_flatMap fun line _ => .inr ⟨"#### ".toList ++ line ++ ['\n'], by simp⟩, ?_⟩
    simp only [List.mem_flatMap, List.mem_append, not_or, not_exists, not_and]
    exact fun line hline => ⟨⟨by decide, hblock line hline⟩, by decide⟩
  | code language => simp [code?, hkind] at hcode

/-- **A block is read as the code that it shows**, if it shows any, and what follows it is read by
itself. -/
theorem readCode_renderBlock {words : Words} (hwords : ∀ entry ∈ words, '\x60' ∉ entry.2)
    {block : Block} (hblock : Fenceless block) (rest : List Char) :
    readCode none (lines (renderBlock words block ++ rest)) =
      (readCode none (lines rest)).map ((code? block).toList ++ ·) := by
  cases hcode : code? block with
  | none =>
    obtain ⟨hwhole, hbacktick⟩ := renderBlock_of_code?_eq_none hwords hblock.noBacktick hcode
    have hpassed : ∀ line ∈ lines (renderBlock words block), '\x60' ∉ line :=
      fun line hline hmem => hbacktick (mem_of_mem_lines hline hmem)
    rw [lines_append hwhole, readCode_none_append hpassed]
    exact Option.map_id'.symm
  | some code =>
    cases hkind : block.kind with
    | paragraph => simp [code?, hkind] at hcode
    | heading => simp [code?, hkind] at hcode
    | code language =>
      simp only [code?, hkind, Option.some.injEq] at hcode
      subst hcode
      have hlines : ∀ line ∈ block.lines.map Line.terminated, '\x60' ∉ line := by
        intro line hline
        obtain ⟨source, hsource, rfl⟩ := List.mem_map.mp hline
        exact notMem_terminated (hblock.noBacktick source hsource)
      have hvoid : ∀ line ∈ [['\n']], '\x60' ∉ line := by decide
      -- the void line after the closing fence is passed over like text
      rw [lines_renderBlock_code words hkind hblock.isSingle, readCode_fenced language hlines,
        ← readCode_none_append hvoid]
      rfl

theorem readCode_flatMap_renderBlock {words : Words} (hwords : ∀ entry ∈ words, '\x60' ∉ entry.2)
    {bs : List Block} (hbs : ∀ block ∈ bs, Fenceless block) :
    readCode none (lines (bs.flatMap (renderBlock words))) = some (bs.filterMap code?) := by
  induction bs with
  | nil => rfl
  | cons block bs ih =>
    obtain ⟨hblock, hrest⟩ := List.forall_mem_cons.mp hbs
    rw [List.flatMap_cons, readCode_renderBlock hwords hblock, ih hrest, List.filterMap_cons]
    cases code? block <;> rfl

theorem fenceless_of_mem_blocks {text : List Char} (htext : '\x60' ∉ text) {detectDiff : Bool} :
    ∀ block ∈ blocks text detectDiff, Fenceless block := by
  intro block hblock
  refine ⟨fun line hline => isSingle_of_mem_blocks hblock hline, fun line hline hmem => ?_⟩
  obtain ⟨source, hsource, hpart⟩ := isInfix_of_mem_blocks hblock hline
  exact htext (mem_of_mem_lines hsource (hpart.subset hmem))

/-- **Code can be read back from the Markdown of a comment**: if neither the comment nor a URL of a
word holds a backtick, reading ends outside of code, and it gives the code blocks of the comment in
order, each with its language and its lines. -/
theorem readCode_ofComment (options : Options) (text : List Char) (htext : '\x60' ∉ text)
    (hwords : ∀ entry ∈ options.words, '\x60' ∉ entry.2) :
    readCode none (lines (ofComment options text)) =
      some ((blocks text options.diffBlocks).filterMap code?) :=
  readCode_flatMap_renderBlock hwords (fenceless_of_mem_blocks htext)

/-- A URL with a newline in it, code with a void line and a line that would pass as a heading, and a
last line that is not ended. -/
theorem readCode_ofComment_mixed :
    let text := "See Client.\n\n\tget(\"http://a.b\")\n\n\tTitle\n\nTitle\n\nThen:\n\n\t-old\n\t+new".toList
    let options : Options := { words := [("Client".toList, "#go\n".toList)] }
    '\x60' ∉ text ∧ (∀ entry ∈ options.words, '\x60' ∉ entry.2) ∧
      readCode none (lines (ofComment options text)) =
        some [⟨.go, ["get(\"http://a.b\")\n".toList, "\n".toList, "Title\n".toList]⟩,
          ⟨.diff, ["-old\n".toList, "+new\n".toList]⟩] := by
  intro text options
  have htext : '\x60' ∉ text := by decide +kernel +zetaReduce
  have hwords : ∀ entry ∈ options.words, '\x60' ∉ entry.2 := by decide +kernel +zetaReduce
  refine ⟨htext, hwords, (readCode_ofComment options text htext hwords).trans ?_⟩
  decide +kernel +zetaReduce

end Markdown
end PackageReadme
