import Jawn.Text.GraphemeExtend
import Jawn.Text.Unprintable

/-!
# Characters in messages

A character that would not show in a message is written as an escape.
-/

namespace Jawn

/-- The voicing marks of halfwidth Katakana extend the character before them and yet have a width of
their own. -/
def isHalfwidthVoicing (c : Char) : Bool :=
  c == '\uff9e' || c == '\uff9f'

/-- Whether a character does not show by itself. -/
def isHidden (c : Char) : Bool :=
  (isGraphemeExtend c && !isHalfwidthVoicing c) || isUnprintable c

/-- The character itself, or an escape if it is a quote, a backslash or does not show. -/
def escape (c : Char) : String :=
  if c = '\x00' then "\\0"
  else if c = '\t' then "\\t"
  else if c = '\r' then "\\r"
  else if c = '\n' then "\\n"
  else if c = '\'' then "\\'"
  else if c = '"' then "\\\""
  else if c = '\\' then "\\\\"
  else if isHidden c then
    "\\u\x7b" ++ String.ofList (Nat.toDigits 16 c.toNat) ++ "\x7d"
  else String.ofList [c]

/-- A text between double quotes. A single quote needs no escape there. -/
def quoteText (text : String) : String :=
  "\"" ++ String.join (text.toList.map fun c => if c = '\'' then "'" else escape c) ++ "\""

end Jawn
