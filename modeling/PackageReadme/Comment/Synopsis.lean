import PackageReadme.Comment.Sentence
import PackageReadme.Text.Blank

/-! The synopsis of a comment: the first sentence of its first paragraph, on one line. A comment
that starts with a notice of copyright or authorship has no synopsis. -/
namespace PackageReadme.Comment
open Text

/-- The paragraphs of a text: they are parted by two newlines. -/
def paragraphs : List Char → List (List Char)
  | [] => [[]]
  | '\n' :: '\n' :: rest => [] :: paragraphs rest
  | c :: rest =>
    match paragraphs rest with
    | [] => [[c]]
    | paragraph :: others => (c :: paragraph) :: others

/-- The first paragraph that is not blank, trimmed. -/
def firstParagraph (doc : List Char) : List Char :=
  (((paragraphs doc).map trim).find? (· != [])).getD []

/-- The words of a text with one space between neighbours. -/
def collapseBlanks (s : List Char) : List Char :=
  [' '].intercalate (words s)

/-- Openings of a notice, which is no synopsis. -/
def noticeOpenings : List (List Char) :=
  ["copyright".toList, "all rights".toList, "author".toList]

/-- Whether a text opens with a notice, in letters of either case. -/
def isNotice (s : List Char) : Bool :=
  noticeOpenings.any fun opening => opening.isPrefixOf (s.map Char.toLower)

def synopsis (doc : List Char) : List Char :=
  let sentence := firstSentence (collapseBlanks (firstParagraph doc))
  if isNotice sentence then [] else sentence

end PackageReadme.Comment
