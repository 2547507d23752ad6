import Jawn.Construct.Choice
import Jawn.Tag

/-!
# Constructs

A construct is one unit of a program: a tag with its operands under their names. Constructs do not
hold other constructs. A program is a flat list of them, and the head of a class, a function or a
condition is closed only by a later construct of the list.
-/

namespace Jawn

/-- An operator and the value on its right. -/
structure Comparison where
  operator : String
  value : String
  deriving DecidableEq, Repr

inductive Construct where
  | newline
  | space
  | classHead (name : String)
  | subclassHead (name parent : String)
  | instantiation (var cls : String)
  | closeCurly
  | closeParen
  | openCurly
  | openParen
  | openSquare
  | closeSquare
  | functionHead (name : String) (deferred : Bool)
  | methodCall (callee method : String) (deferred : Bool)
  | returned (value : String)
  | instanceTest (var cls : String)
  | constant (var value : String) (deferred : Bool)
  | mutableVar (var value : String) (deferred : Bool)
  | varName (var : String)
  | className (cls : String)
  | memberName (member : String)
  | ifHead
  | elseHead
  | oneOperator (var operator : String) (values : List String)
  | twoOperators (var : String) (first second : Comparison)
  | quotedString (quote : Quote) (value : String)
  | atomConstant (var atom : String)
  | atomName (atom : String)
  | slice (var start stop : String)
  | elementwise (var operator value : String)
  | notEqual
  | estimate (lhs rhs : String)
  | estimateTo (lhs precision rhs : String)
  | divMod (var value : String)
  | factorial (value : String)
  | maybe
  | maybeWeighted (probability : String)
  | magnitude (lhs : String) (sign : Magnitude) (rhs : String)
  | magnitudeBy (lhs : String) (sign : Magnitude) (factor rhs : String)
  | bitShift (lhs : String) (direction : Shift) (rhs : String)
  | number (value : String)
  | comma
  | operator (value : String)
  | comment (value : String)
  deriving DecidableEq, Repr

/-- Constructs in the order of the source. -/
abbrev Program := List Construct

namespace Construct

def tag : Construct → Tag
  | newline => .newline
  | space => .space
  | classHead .. => .classHead
  | subclassHead .. => .subclassHead
  | instantiation .. => .instantiation
  | closeCurly => .closeCurly
  | closeParen => .closeParen
  | openCurly => .openCurly
  | openParen => .openParen
  | openSquare => .openSquare
  | closeSquare => .closeSquare
  | functionHead _ deferred => .functionHead deferred
  | methodCall _ _ deferred => .methodCall deferred
  | returned .. => .returned
  | instanceTest .. => .instanceTest
  | constant _ _ deferred => .constant deferred
  | mutableVar _ _ deferred => .mutableVar deferred
  | varName .. => .varName
  | className .. => .className
  | memberName .. => .memberName
  | ifHead => .ifHead
  | elseHead => .elseHead
  | oneOperator .. => .oneOperator
  | twoOperators .. => .twoOperators
  | quotedString .. => .quotedString
  | atomConstant .. => .atomConstant
  | atomName .. => .atomName
  | slice .. => .slice
  | elementwise .. => .elementwise
  | notEqual => .notEqual
  | estimate .. => .estimate
  | estimateTo .. => .estimateTo
  | divMod .. => .divMod
  | factorial .. => .factorial
  | maybe => .maybe
  | maybeWeighted .. => .maybeWeighted
  | magnitude .. => .magnitude
  | magnitudeBy .. => .magnitudeBy
  | bitShift .. => .bitShift
  | number .. => .number
  | comma => .comma
  | operator .. => .operator
  | comment .. => .comment

/-- Whether a construct only makes sense right behind `if (`: it ends the condition and opens the
block. -/
def continuesCondition : Construct → Bool
  | oneOperator .. | twoOperators .. | maybe | maybeWeighted .. => true
  | _ => false

end Construct

end Jawn
