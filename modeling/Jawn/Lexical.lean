import Jawn.Pattern

/-!
# Lexical classes

The kinds of text that can stand in an operand position of a construct. Letters and digits are
the ASCII ones throughout.
-/

namespace Jawn.Lexical

open Pattern

def isWord (c : Char) : Bool :=
  c.isAlphanum || c == '_'

def isMemberStart (c : Char) : Bool :=
  c.isAlpha || c == '_' || c == '$'

def isMember (c : Char) : Bool :=
  c.isAlphanum || c == '_' || c == '$'

/-- Line ends are the line feed and the carriage return. -/
def isLineEnd (c : Char) : Bool :=
  c == '\r' || c == '\n'

/-- A variable or an atom: a small letter, then letters, digits and underscores. -/
def identifier : Pattern :=
  .seq (.one Char.isLower) (.many isWord)

/-- A class: a capital letter, then letters and digits. -/
def className : Pattern :=
  .seq (.one Char.isUpper) (.many Char.isAlphanum)

def functionName : Pattern :=
  .seq (.one fun c => c.isAlpha || c == '_') (.many isWord)

/-- A property or a method. -/
def member : Pattern :=
  .seq (.one isMemberStart) (.many isMember)

/-- Members joined by points. -/
def memberPath : Pattern :=
  .seq member (.star (.seq (.text ['.']) member))

def digits : Pattern :=
  .seq (.one Char.isDigit) (.many Char.isDigit)

/-- A decimal with an optional sign and an optional fraction. -/
def number : Pattern :=
  .seq (optional (.text ['-'])) (.seq digits (optional (.seq (.text ['.']) digits)))

/-- A decimal without a sign that may start with its point. -/
def probability : Pattern :=
  .seq (.many Char.isDigit) (.seq (optional (.text ['.'])) digits)

/-- A variable or a number. -/
def value : Pattern :=
  .alt identifier number

def comparison : Pattern :=
  anyOf ["===", "!==", "==", "!=", "<=", ">=", "<", ">"]

def arithmetic : Pattern :=
  .one fun c => c == '-' || c == '+' || c == '*' || c == '/' || c == '%'

/-- An operator that is written as it stands. -/
def operator : Pattern :=
  .alt (anyOf ["===", "!==", "==", "!=", "<=", ">=", "&&", "||"])
    (.one fun c => c == '-' || c == '+' || c == '*' || c == '/' || c == '%' || c == '<' ||
      c == '>' || c == '!' || c == '=')

/-- The inside of a string on one line: a backslash takes the next character with it, unless
that is a line feed. -/
def quotedBody (quote : Char) : Pattern :=
  .star (.alt (.one fun c => !(c == quote || c == '\\' || isLineEnd c))
    (.seq (.text ['\\']) (.one fun c => c != '\n')))

/-- The inside of a string between backticks, which may run over several lines. -/
def templateBody : Pattern :=
  .star (.alt (.one fun c => !(c == '\x60' || c == '\\')) (.seq (.text ['\\']) (.one fun _ => true)))

def quoted (quote : Char) : Pattern :=
  .seq (.text [quote]) (.seq (quotedBody quote) (.text [quote]))

/-- One value of a condition: strings are read whole, so a comma or a parenthesis inside one does
not end the value. -/
def conditionValue : Pattern :=
  plus (.alt (quoted '"') (.alt (quoted '\'')
    (.one fun c => !(c == ',' || c == '(' || c == ')' || c == '"' || c == '\'' || isLineEnd c))))

/-- Values of a condition with commas between them. White space around a comma belongs to the
values, also the one space that may follow it (`Condition.read_spacedValues`). -/
def conditionValues : Pattern :=
  .seq conditionValue (.star (.seq (.text [',']) conditionValue))

/-- Everything up to the end of the line. -/
def restOfLine : Pattern :=
  .many fun c => !isLineEnd c

/-- The value of a constant: the rest of the line, unless it starts with an atom. -/
def declaredValue : Pattern :=
  optional (.alt
    (.seq (.one fun c => !(c == ':' || isLineEnd c)) restOfLine)
    (.seq (.text [':']) (.seq (.one fun c => !(c.isLower || isLineEnd c)) restOfLine)))

def magnitudeSign : Pattern :=
  anyOf [">>", "<<"]

def shiftWord : Pattern :=
  anyOf ["shl", "shr"]

end Jawn.Lexical
