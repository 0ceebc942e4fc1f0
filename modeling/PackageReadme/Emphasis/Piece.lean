import PackageReadme.Emphasis.Link
import PackageReadme.Emphasis.Parens
import PackageReadme.Text.Line

/-! The pieces of a line: code spans, links, words and the characters between them.

`pieces` cuts a line, and the sources of its pieces put together give the line back. How a piece is
written depends on a map from words to links, but where the cuts lie does not. -/
namespace PackageReadme.Emphasis
open Text

inductive Piece where
  | plain (c : Char)
  | code (text : List Char)
  | word (text : List Char)
  | link (link : Link)
  deriving DecidableEq, Repr

/-- The text that a piece was read from. -/
def Piece.source : Piece → List Char
  | .plain c => [c]
  | .code text => ['\x60'] ++ text ++ ['\x60']
  | .word text => text
  | .link found => found.source

/-! ### Cutting a line -/

/-- The link at the front of a text, or else the word. -/
def read? (s : List Char) : Option Piece :=
  match link? s with
  | some found => some (.link found)
  | none => (word? s).map .word

/-- The first link or word of a text, after the text before it. -/
def first? : List Char → Option (List Char × Piece)
  | [] => none
  | c :: cs =>
    match read? (c :: cs) with
    | some piece => some ([], piece)
    | none => (first? cs).map fun (before, piece) => (c :: before, piece)

/-- The link or word at the front of a text. Parentheses that are not paired inside it belong to the
text around it, so that its paired part is read again by itself, and the first link or word of that
part counts, after the text before it. -/
def readPaired? (s : List Char) : Option (List Char × Piece) :=
  match read? s with
  | none => none
  | some piece =>
    let paired := pairedStart piece.source
    if paired.length < piece.source.length then first? paired else some ([], piece)

/-- The pieces of a text without code spans, of which the first `skip` characters belong to the
piece before. -/
def textPieces (skip : Nat) : List Char → List Piece
  | [] => []
  | c :: cs =>
    match skip with
    | skip + 1 => textPieces skip cs
    | 0 =>
      match readPaired? (c :: cs) with
      | some (before, piece) =>
        before.map .plain ++ piece :: textPieces (before.length + piece.source.length - 1) cs
      | none => .plain c :: textPieces 0 cs

/-- The pieces of a line that backticks cut into the given parts. Backticks pair up from the left;
one that is left over is text. -/
def partPieces : List (List Char) → List Piece
  | [] => []
  | [text] => textPieces 0 text
  | [text, last] => textPieces 0 (text ++ ['\x60'] ++ last)
  | text :: code :: rest => textPieces 0 text ++ .code code :: partPieces rest

/-- The pieces of a line. -/
def pieces (line : List Char) : List Piece :=
  partPieces (cut '\x60' line)

/-! ### Writing a line -/

/-- Words with the URL that each is linked to; a word with an empty URL is set in italics only. -/
abbrev Words := List (List Char × List Char)

def escapedChar (c : Char) : List Char :=
  if c = '&' then "&amp;".toList
  else if c = '<' then "&lt;".toList
  else if c = '>' then "&gt;".toList
  else if c = '"' then "&#34;".toList
  else if c = '\'' then "&#39;".toList
  else if c = '\x00' then ['�']
  else [c]

/-- A text in which no character is markup. -/
def escaped (s : List Char) : List Char :=
  s.flatMap escapedChar

/-- `s` without `c` at its end, if it ends so. -/
def withoutLast (c : Char) (s : List Char) : List Char :=
  if s.getLast? = some c then s.dropLast else s

/-- A Markdown link. -/
def anchor (title url : List Char) : List Char :=
  ['['] ++ escaped title ++ [']', '('] ++ url ++ [')']

/-- A Markdown link whose last punctuation mark, if the URL ends in one, stands after the link. -/
def anchorInSentence (title url : List Char) : List Char :=
  match url.getLast? with
  | some mark =>
    if isPunctuation mark then anchor (withoutLast mark title) url.dropLast ++ [mark]
    else anchor title url
  | none => anchor title url

/-- A link without an entry in the map of words. A local path that ends in three periods names
packages and stays as it is. -/
def Link.render (link : Link) : List Char :=
  if link.isLocal && ['.', '.', '.'].isSuffixOf link.target then link.source
  else
    match link.title with
    | none => anchorInSentence link.target link.target
    | some title =>
      match after? "image/".toList title.text with
      | some text => '!' :: anchorInSentence text link.target
      | none => anchorInSentence title.text link.target

def Piece.render (words : Words) : Piece → List Char
  | .plain c => [c]
  | .code text => (Piece.code text).source
  | .word text =>
    match words.lookup text with
    | none => text
    | some [] => ['*'] ++ text ++ ['*']
    | some url => ['[', '*'] ++ text ++ ['*', ']', '('] ++ url ++ [')']
  | .link found =>
    match words.lookup found.source with
    | none => found.render
    | some [] => found.source
    | some url => anchorInSentence found.source url

/-- A line of a paragraph with its links and words written as Markdown. It always ends in a
newline. -/
def emphasize (words : Words) (line : List Char) : List Char :=
  (pieces (Line.terminated line)).flatMap (Piece.render words)

end PackageReadme.Emphasis
