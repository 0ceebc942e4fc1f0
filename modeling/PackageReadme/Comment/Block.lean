import PackageReadme.Comment.Heading
import PackageReadme.Text.Line

/-! The blocks of a comment: paragraphs, headings and code.

`blocks` reads the unindented lines from the first to the last. A run of indented lines, with the
void lines inside it, is code. A single line that passes as a heading, after a void line and before
a void line and more text, is a heading. Every other run of lines is a paragraph. The spans of the
blocks tile the lines, so that no line is lost and none is shared. -/
namespace PackageReadme.Comment
open Text

inductive Language where
  | go
  | diff
  deriving DecidableEq, Repr

/-- The tag that a code fence carries. -/
def Language.tag : Language → String
  | .go => "go"
  | .diff => "diff"

inductive BlockKind where
  | paragraph
  | heading
  | code (language : Language)
  deriving DecidableEq, Repr

/-- A block that starts at line `start` and reaches up to line `stop`, void lines after it
included. -/
structure Block where
  kind : BlockKind
  lines : List Line
  start : Nat
  stop : Nat
  deriving DecidableEq, Repr

/-! ### Code -/

/-- A line on which code may go on. -/
def goesOnWithCode (line : Line) : Bool :=
  line.isVoid || line.isIndented

/-- `ls` without the void lines at its end. -/
def dropVoidTail : List Line → List Line
  | [] => []
  | line :: rest =>
    match dropVoidTail rest with
    | [] => if line.isVoid then [] else [line]
    | kept => line :: kept

/-- A line that a diff adds or removes. -/
def isDiffLine (line : Line) : Bool :=
  match line.drop line.indent.length with
  | c :: _ => c == '+' || c == '-'
  | [] => false

def codeLanguage (detectDiff : Bool) (ls : List Line) : Language :=
  if detectDiff && ls.any isDiffLine then .diff else .go

/-! ### The scan -/

/-- Whether a void line and then unindented text follow. -/
def textFollowsVoid : List Line → Bool
  | gap :: next :: _ => gap.isVoid && !next.isVoid && !next.isIndented
  | _ => false

/-- A line of a paragraph after its first. -/
def goesOnWithParagraph (line : Line) : Bool :=
  !line.isVoid && !line.isIndented

/-- The blocks that start in the given lines, the first of which is line `index`; each reaches over
its own lines only. `skip` lines still belong to the block before. A heading needs a void line
before it, `afterVoid`, which code does not cancel, and it never follows a heading,
`afterHeading`. -/
def scan (detectDiff : Bool) (skip : Nat) (afterVoid afterHeading : Bool) (index : Nat) :
    List Line → List Block
  | [] => []
  | line :: rest =>
    match skip with
    | skip + 1 => scan detectDiff skip afterVoid afterHeading (index + 1) rest
    | 0 =>
      if line.isVoid then scan detectDiff 0 true afterHeading (index + 1) rest
      else if line.isIndented then
        let body := line :: dropVoidTail (rest.takeWhile goesOnWithCode)
        ⟨.code (codeLanguage detectDiff body), unindent body, index, index + body.length⟩ ::
          scan detectDiff (body.length - 1) afterVoid false (index + 1) rest
      else
        match
          if afterVoid && !afterHeading && textFollowsVoid rest then heading? line else none
        with
        | some title =>
          ⟨.heading, [title], index, index + 1⟩ :: scan detectDiff 1 afterVoid true (index + 1) rest
        | none =>
          let body := line :: rest.takeWhile goesOnWithParagraph
          ⟨.paragraph, body, index, index + body.length⟩ ::
            scan detectDiff (body.length - 1) false false (index + 1) rest

/-! ### Spans -/

/-- Stretches every block up to the next, and the last one up to line `count`. -/
def stretch (count : Nat) : List Block → List Block
  | [] => []
  | [last] => [{ last with stop := count }]
  | block :: next :: rest => { block with stop := next.start } :: stretch count (next :: rest)

/-- Makes the spans of the blocks tile the lines from 0 to `count`. -/
def tile (count : Nat) : List Block → List Block
  | [] => []
  | first :: rest => stretch count ({ first with start := 0 } :: rest)

/-- The blocks of a comment. Code is tagged as a diff if `detectDiff` is set and one of its lines
adds or removes. -/
def blocks (text : List Char) (detectDiff : Bool) : List Block :=
  let ls := unindent (lines text)
  tile ls.length (scan detectDiff 0 false false 0 ls)

end PackageReadme.Comment
