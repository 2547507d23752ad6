/-!
# Blanks, comments and line ends of TOML
-/

namespace Jawn.Toml

def isSpace (c : Char) : Bool :=
  c == ' ' || c == '\t'

/-- Control characters other than the tab stand nowhere in a document. -/
def isControl (c : Char) : Bool :=
  (c.toNat < 0x20 && c != '\t') || c == '\x7f'

def skipSpaces (s : List Char) : List Char :=
  s.dropWhile isSpace

/-- Skips blanks, line ends and comments; `comment` tells whether a comment has begun. -/
def skipLines (comment : Bool) : List Char → List Char
  | [] => []
  | '\r' :: '\n' :: rest => skipLines false rest
  | c :: rest =>
    if c == '\n' then skipLines false rest
    else if comment then if isControl c then c :: rest else skipLines true rest
    else if isSpace c then skipLines false rest
    else if c == '#' then skipLines true rest
    else c :: rest

/-- What follows a line end at the front of a text. -/
def lineBreak? : List Char → Option (List Char)
  | '\n' :: rest => some rest
  | '\r' :: '\n' :: rest => some rest
  | _ => none

/-- The rest of a line that holds at most a comment, up to and with the line end. -/
def lineEnd (s : List Char) : Option (List Char) :=
  let s := skipSpaces s
  let s := if s.head? == some '#' then s.dropWhile fun c => !isControl c else s
  if s.isEmpty then some [] else lineBreak? s

end Jawn.Toml
