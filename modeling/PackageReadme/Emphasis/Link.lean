import PackageReadme.Text.Blank
import PackageReadme.Text.Letter
import PackageReadme.Text.Start

/-! The grammar of links and words in a line of a comment.

A link is a URL or a local path, with an optional title in parentheses and one separating character
before it. A word is an identifier. Each reader takes the longest text that the grammar allows at
the front of its argument. -/
namespace PackageReadme.Emphasis
open Text

/-! ### Character classes -/

def isAsciiAlphanumeric (c : Char) : Bool :=
  c.isAlpha || c.isDigit

/-- Punctuation that ends a sentence rather than a link. -/
def isPunctuation (c : Char) : Bool :=
  ['.', ',', ':', ';', '?', '!'].contains c

def isHostChar (c : Char) : Bool :=
  isAsciiAlphanumeric c || ['_', '@', '-', '.', '[', ']', ':'].contains c

/-- A character that a path may end in. -/
def isPathChar (c : Char) : Bool :=
  isAsciiAlphanumeric c ||
    ['$', '\'', '(', ')', '*', '+', '&', '#', '=', '@', '~', '_', '/', '-', '[', ']',
      '%'].contains c

def isLocalChar (c : Char) : Bool :=
  isAsciiAlphanumeric c || ['_', '@', '-', '.', '/'].contains c

def isWordStart (c : Char) : Bool :=
  isLetter c || c == '_'

def isWordChar (c : Char) : Bool :=
  isWordStart c || c.isDigit

/-! ### Targets -/

/-- The protocols that make a URL, each before any protocol that it starts with. -/
def protocols : List (List Char) :=
  ["https".toList, "http".toList, "ftp".toList, "file".toList, "gopher".toList, "mailto".toList,
   "nntp".toList]

/-- The path at the front of a text. Punctuation belongs to it only where more of the path
follows. -/
def path (s : List Char) : List Char :=
  dropTail isPunctuation (s.takeWhile fun c => isPathChar c || isPunctuation c)

/-- The host and the path at the front of a text; there is no URL without a host. -/
def hostAndPath? (s : List Char) : Option (List Char) :=
  let host := s.takeWhile isHostChar
  if host.isEmpty then none else some (host ++ path (s.drop host.length))

/-- The URL at the front of a text. -/
def url? (s : List Char) : Option (List Char) :=
  protocols.findSome? fun protocol =>
    let opening := protocol ++ [':', '/', '/']
    match after? opening s with
    | some rest => (hostAndPath? rest).map (opening ++ ·)
    | none => none

/-- The local path at the front of a text. -/
def local? : List Char → Option (List Char)
  | '.' :: '/' :: rest => some ('.' :: '/' :: rest.takeWhile isLocalChar)
  | _ => none

/-! ### Links and words -/

/-- A title with the character between its parenthesis and the target. -/
structure Title where
  text : List Char
  separator : Char
  deriving DecidableEq, Repr

/-- A link as it stands in a comment. -/
structure Link where
  title : Option Title
  target : List Char
  isLocal : Bool
  deriving DecidableEq, Repr

/-- The text that a link was read from. -/
def Link.source (link : Link) : List Char :=
  match link.title with
  | some title => ['('] ++ title.text ++ [')', title.separator] ++ link.target
  | none => link.target

/-- A target at the front of a text, under a title read before it. -/
def target? (title : Option Title) (s : List Char) : Option Link :=
  match url? s with
  | some target => some ⟨title, target, false⟩
  | none => (local? s).map fun target => ⟨title, target, true⟩

/-- A link with a title at the front of a text. -/
def titled? : List Char → Option Link
  | '(' :: rest =>
    let text := rest.takeWhile (· != ')')
    if text.isEmpty then none
    else
      match rest.drop text.length with
      | ')' :: separator :: after =>
        if isAsciiAlphanumeric separator || separator == '_' then none
        else target? (some ⟨text, separator⟩) after
      | _ => none
  | _ => none

/-- The link at the front of a text. -/
def link? (s : List Char) : Option Link :=
  match titled? s with
  | some link => some link
  | none => target? none s

/-- The identifier at the front of a text. -/
def word? : List Char → Option (List Char)
  | c :: rest => if isWordStart c then some (c :: rest.takeWhile isWordChar) else none
  | [] => none

end PackageReadme.Emphasis
