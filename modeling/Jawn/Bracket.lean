import Jawn.Construct.Basic
import Jawn.Span

/-!
# Brackets

What each construct does to the brackets that are open.
-/

namespace Jawn

inductive Bracket where
  | curly
  | paren
  | square
  deriving DecidableEq, Repr

def Bracket.close : Bracket → Char
  | curly => '\x7d'
  | paren => ')'
  | square => ']'

/-- A construct that waits for its closing bracket. -/
structure Opener where
  bracket : Bracket
  tag : Tag
  span : Span
  deriving DecidableEq, Repr

/-- The effect of a construct on the open brackets. -/
inductive Effect where
  | keeps
  | opens (bracket : Bracket)
  | closes (bracket : Bracket)
  /-- Closes the parenthesis of a condition and opens its block. -/
  | continues
  deriving DecidableEq, Repr

def Construct.effect (c : Construct) : Effect :=
  match c with
  | classHead .. | subclassHead .. | functionHead .. | elseHead | openCurly => .opens .curly
  | methodCall .. | openParen | ifHead => .opens .paren
  | openSquare => .opens .square
  | closeCurly => .closes .curly
  | closeParen => .closes .paren
  | closeSquare => .closes .square
  | _ => if c.continuesCondition then .continues else .keeps

end Jawn
