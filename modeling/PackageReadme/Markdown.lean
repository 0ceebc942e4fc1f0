import PackageReadme.Comment.Block
import PackageReadme.Emphasis.Piece

/-! A comment as Markdown.

Paragraphs have their links and words written out and a void line after them, headings become
headings of the fourth level, and code is copied between fences. -/
namespace PackageReadme.Markdown
open Comment Emphasis Text

structure Options where
  words : Words := []
  diffBlocks : Bool := true
  deriving Repr

/-- The fence of a code block, three backticks. -/
def fence : List Char :=
  ['\x60', '\x60', '\x60']

def renderBlock (words : Words) (block : Block) : List Char :=
  match block.kind with
  | .paragraph => block.lines.flatMap (emphasize words) ++ ['\n']
  | .heading => block.lines.flatMap fun line => "#### ".toList ++ line ++ ['\n', '\n']
  | .code language =>
    fence ++ language.tag.toList ++ ['\n'] ++ block.lines.flatMap Line.terminated ++ fence ++
      ['\n', '\n']

/-- The Markdown of a comment. -/
def ofComment (options : Options) (text : List Char) : List Char :=
  (blocks text options.diffBlocks).flatMap (renderBlock options.words)

end PackageReadme.Markdown
