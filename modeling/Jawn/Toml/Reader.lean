import Jawn.Toml.Moment
import Jawn.Toml.Quoted
import Jawn.Toml.Value

/-!
# Reading keys and values of TOML

Each reader takes a text and gives what it read at the front with the rest of the text, or nothing
if the text does not start with it. Values nest, and their readers are bounded by the length of the
text.
-/

namespace Jawn.Toml

/-- The most points in a key, and the deepest nesting of arrays and inline tables. -/
def depthLimit : Nat :=
  80

def isBareKey (c : Char) : Bool :=
  c.isAlphanum || c == '_' || c == '-'

/-- One part of a key. -/
def simpleKey (s : List Char) : Option (String × List Char) :=
  if (s.head?.map isQuote).getD false then lineString s
  else
    let text := s.takeWhile isBareKey
    if text.isEmpty then none else some (String.ofList text, s.dropWhile isBareKey)

/-- A key with points between its parts and blanks around them, of at most `bound` parts. -/
def dottedKey (bound : Nat) (s : List Char) : Option (List String × List Char) :=
  match bound with
  | 0 => none
  | bound + 1 => do
    let (part, rest) ← simpleKey (skipSpaces s)
    match skipSpaces rest with
    | '.' :: rest => do
      let (parts, rest) ← dottedKey bound rest
      return (part :: parts, rest)
    | rest => return ([part], rest)

def key (s : List Char) : Option (List String × List Char) :=
  dottedKey (depthLimit + 1) s

/-- A value that is a single word. -/
def wordValue (word : List Char) : Option Value :=
  if word == ['t', 'r', 'u', 'e'] then some (.boolean true)
  else if word == ['f', 'a', 'l', 's', 'e'] then some (.boolean false)
  else
    match integer? word with
    | some n => some (.integer n)
    | none =>
      if isFloat word then some (.float (String.ofList word))
      else if isMoment word then some (.moment (String.ofList word))
      else none

/-- Whether a character can be part of a value that is a single word. -/
def isWordValue (c : Char) : Bool :=
  c.isAlphanum || c == '_' || c == '+' || c == '-' || c == '.' || c == ':'

/-- The word at the front. A date goes on over one blank if a digit follows. -/
def valueWord (s : List Char) : List Char × List Char :=
  let word := s.takeWhile isWordValue
  match s.dropWhile isWordValue with
  | ' ' :: c :: rest =>
    if afterDate? word == some [] && c.isDigit then
      (word ++ ' ' :: (c :: rest).takeWhile isWordValue, (c :: rest).dropWhile isWordValue)
    else (word, ' ' :: c :: rest)
  | rest => (word, rest)

mutual

/-- A value inside `depth` arrays and inline tables. -/
def boundedValue (bound depth : Nat) (s : List Char) : Option (Value × List Char) :=
  match bound with
  | 0 => none
  | bound + 1 =>
    match s with
    | '[' :: rest =>
      if depth < depthLimit then
        (arrayItems bound (depth + 1) (skipLines false rest)).map fun (items, rest) =>
          (.array false items, rest)
      else none
    | '\x7b' :: rest =>
      if depth < depthLimit then
        (tableEntries bound (depth + 1) [] (skipLines false rest)).map fun (entries, rest) =>
          (.table .inline entries, rest)
      else none
    | _ =>
      if (s.head?.map isQuote).getD false then
        (quoted s).map fun (text, rest) => (.string text, rest)
      else
        let (word, rest) := valueWord s
        (wordValue word).map fun v => (v, rest)

/-- The items of an array up to and with its closing bracket. A comma may follow the last one. -/
def arrayItems (bound depth : Nat) (s : List Char) : Option (List Value × List Char) :=
  match bound with
  | 0 => none
  | bound + 1 =>
    match s with
    | ']' :: rest => some ([], rest)
    | _ => do
      let (item, rest) ← boundedValue bound depth s
      match skipLines false rest with
      | ',' :: rest => do
        let (items, rest) ← arrayItems bound depth (skipLines false rest)
        return (item :: items, rest)
      | ']' :: rest => return ([item], rest)
      | _ => none

/-- The entries of an inline table up to and with its closing brace, behind those read before. Line
ends may stand around each key and value, and a comma may follow the last entry. -/
def tableEntries (bound depth : Nat) (entries : Table) (s : List Char) :
    Option (Table × List Char) :=
  match bound with
  | 0 => none
  | bound + 1 =>
    match s with
    | '\x7d' :: rest => some (entries, rest)
    | _ => do
      let (path, rest) ← key s
      match skipLines false rest with
      | '=' :: rest => do
        let (v, rest) ← boundedValue bound depth (skipLines false rest)
        let entries ← (entries.assign path v).toOption
        match skipLines false rest with
        | ',' :: rest => tableEntries bound depth entries (skipLines false rest)
        | '\x7d' :: rest => return (entries, rest)
        | _ => none
      | _ => none

end

/-- A value. -/
def value (s : List Char) : Option (Value × List Char) :=
  boundedValue (2 * s.length + 1) 0 s

end Jawn.Toml
