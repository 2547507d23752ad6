import Jawn.Span
import Jawn.Tag

/-!
# Tokens

A stream of tokens is the flat form of a source: each construct is its tag followed by its
operands, and one end marker closes the stream.
-/

namespace Jawn

inductive Token where
  | tag (tag : Tag)
  | operand (text : String)
  /-- The end marker. -/
  | eof
  deriving DecidableEq, Repr

namespace Token

def isOperand : Token → Bool
  | operand _ => true
  | _ => false

/-- Tags and the end marker by name, operands between single quotes. -/
def display : Token → String
  | tag t => t.display
  | operand text => s!"'{text}'"
  | eof => "EOF"

/-- The name of a tag or of the end marker, without the mark of a deferred construct. -/
def name : Token → String
  | tag t => t.name
  | operand text => text
  | eof => "EOF"

/-- The number of operands that must follow. -/
def arity : Token → Nat
  | tag t => t.arity
  | _ => 0

/-- The tag or end marker that is displayed as `text`. -/
def ofDisplay? (text : String) : Option Token :=
  if text = "EOF" then some eof else (Tag.ofDisplay? text).map tag

/-- A whole stream on one line. -/
def displayAll (tokens : List Token) : String :=
  "[" ++ ", ".intercalate (tokens.map display) ++ "]"

end Token

end Jawn
