import Jawn.Toml.Blank
import Jawn.Toml.Number

/-!
# Strings of TOML

Strings between double quotes have escapes, and those between single quotes have none. Between three
quotes a string may go over several lines.
-/

namespace Jawn.Toml

/-- The character with a hexadecimal number. -/
def hexChar? (digits : List Char) : Option Char := do
  let values ← digits.mapM hexValue?
  let n := values.foldl (fun n d => 16 * n + d) 0
  if n.isValidChar then some (Char.ofNat n) else none

/-- The character of a short escape. -/
def escaped? (c : Char) : Option Char :=
  [('b', '\x08'), ('t', '\t'), ('n', '\n'), ('f', '\x0c'), ('r', '\r'), ('e', '\x1b'), ('"', '"'),
    ('\\', '\\')].lookup c

/-- The end of a string of several lines behind its three closing quotes. Up to two quotes more
belong to the string. -/
def closeLines (quote : Char) (s : List Char) : List Char × List Char :=
  let inside := (s.take 2).takeWhile (· == quote)
  (inside, s.drop inside.length)

/-- Whether nothing but blanks stands before the line end. -/
def isBlankLine (s : List Char) : Bool :=
  (lineBreak? (skipSpaces s)).isSome

/-- The inside of a string between double quotes, and what follows the closing quotes. A string of
several `lines` may end a line with a backslash; then it is `joining` and leaves out the blanks and
line ends up to the next other character. -/
def basicString (lines joining : Bool) : List Char → Option (List Char × List Char)
  | [] => none
  | '"' :: rest =>
    if !lines then some ([], rest)
    else if rest.take 2 == ['"', '"'] then some (closeLines '"' (rest.drop 2))
    else do
      let (text, rest) ← basicString lines false rest
      return ('"' :: text, rest)
  | '\\' :: 'x' :: a :: b :: rest => do
    let c ← hexChar? [a, b]
    let (text, rest) ← basicString lines false rest
    return (c :: text, rest)
  | '\\' :: 'u' :: a :: b :: c :: d :: rest => do
    let c ← hexChar? [a, b, c, d]
    let (text, rest) ← basicString lines false rest
    return (c :: text, rest)
  | '\\' :: 'U' :: a :: b :: c :: d :: e :: f :: g :: h :: rest => do
    let c ← hexChar? [a, b, c, d, e, f, g, h]
    let (text, rest) ← basicString lines false rest
    return (c :: text, rest)
  | '\\' :: c :: rest =>
    if lines && isBlankLine (c :: rest) then basicString lines true rest
    else do
      let c ← escaped? c
      let (text, rest) ← basicString lines false rest
      return (c :: text, rest)
  | '\r' :: '\n' :: rest =>
    if !lines then none
    else if joining then basicString lines true rest
    else do
      let (text, rest) ← basicString lines false rest
      return ('\n' :: text, rest)
  | c :: rest =>
    if joining && (isSpace c || c == '\n') then basicString lines true rest
    else if c == '\\' || (isControl c && !(lines && c == '\n')) then none
    else do
      let (text, rest) ← basicString lines false rest
      return (c :: text, rest)

/-- The inside of a string between single quotes, and what follows the closing quotes. -/
def literalString (lines : Bool) : List Char → Option (List Char × List Char)
  | [] => none
  | '\'' :: rest =>
    if !lines then some ([], rest)
    else if rest.take 2 == ['\'', '\''] then some (closeLines '\'' (rest.drop 2))
    else do
      let (text, rest) ← literalString lines rest
      return ('\'' :: text, rest)
  | '\r' :: '\n' :: rest =>
    if !lines then none
    else do
      let (text, rest) ← literalString lines rest
      return ('\n' :: text, rest)
  | c :: rest =>
    if isControl c && !(lines && c == '\n') then none
    else do
      let (text, rest) ← literalString lines rest
      return (c :: text, rest)

/-- A string of several lines leaves out a line end right behind its opening quotes. -/
def openLines (s : List Char) : List Char :=
  (lineBreak? s).getD s

/-- A string on one line. -/
def lineString (s : List Char) : Option (String × List Char) :=
  match s with
  | '"' :: rest =>
    (basicString false false rest).map fun (text, rest) => (String.ofList text, rest)
  | '\'' :: rest => (literalString false rest).map fun (text, rest) => (String.ofList text, rest)
  | _ => none

/-- A string on one line or several. -/
def quoted (s : List Char) : Option (String × List Char) :=
  match s with
  | '"' :: '"' :: '"' :: rest =>
    (basicString true false (openLines rest)).map fun (text, rest) => (String.ofList text, rest)
  | '\'' :: '\'' :: '\'' :: rest =>
    (literalString true (openLines rest)).map fun (text, rest) => (String.ofList text, rest)
  | s => lineString s

def isQuote (c : Char) : Bool :=
  c == '"' || c == '\''

end Jawn.Toml
