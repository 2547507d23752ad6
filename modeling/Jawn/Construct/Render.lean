import Jawn.Construct.Basic

/-!
# Constructs as JavaScript

Each construct is written as one fragment of JavaScript, and a program as its fragments one after
another with nothing between them. Operands are written as they are.
-/

namespace Jawn

/-- The factor of a comparison of magnitudes that gives none. -/
def defaultFactor : String := "10"

/-- The probability of a condition that gives none. -/
def defaultProbability : String := "0.5"

def Comparison.display (c : Comparison) : String :=
  c.operator ++ " " ++ c.value

namespace Construct

/-- A declaration; the value of a deferred one is awaited. -/
def renderDeclaration (keyword var value : String) (deferred : Bool) : String :=
  keyword ++ " " ++ var ++ " = " ++ (if deferred then "await " else "") ++ value

def renderMagnitude (lhs : String) (sign : Magnitude) (factor rhs : String) : String :=
  match sign with
  | .muchGreater => "(" ++ lhs ++ " > " ++ rhs ++ " * " ++ factor ++ ")"
  | .muchLess => "(" ++ lhs ++ " * " ++ factor ++ " < " ++ rhs ++ ")"

/-- The fragment of a construct. -/
def render : Construct → String
  | newline => "\n"
  | space => " "
  | classHead name => "class " ++ name ++ " \x7b"
  | subclassHead name parent => "class " ++ name ++ " extends " ++ parent ++ " \x7b"
  | instantiation var cls => "const " ++ var ++ " = new " ++ cls ++ "()"
  | closeCurly => "\x7d"
  | closeParen => ")"
  | openCurly => "\x7b"
  | openParen => "("
  | openSquare => "["
  | closeSquare => "]"
  | functionHead name deferred =>
    (if deferred then "async " else "") ++ "function " ++ name ++ "() \x7b"
  | methodCall callee method deferred =>
    (if deferred then "await " else "") ++ callee ++ "." ++ method ++ "("
  | returned value => "return " ++ value
  | instanceTest var cls => var ++ " instanceof " ++ cls
  | constant var value deferred => renderDeclaration "const" var value deferred
  | mutableVar var value deferred => renderDeclaration "let" var value deferred
  | varName var => var
  | className cls => cls
  | memberName member => "." ++ member
  | ifHead => "if ("
  | elseHead => "else \x7b"
  | oneOperator var op values =>
    " || ".intercalate (values.map fun value => var ++ " " ++ op ++ " " ++ value) ++ ") \x7b"
  | twoOperators var first second =>
    var ++ " " ++ first.display ++ " || " ++ var ++ " " ++ second.display ++ ") \x7b"
  | quotedString quote value => quote.display ++ value ++ quote.display
  | atomConstant var atom => "const " ++ var ++ " = Symbol.for('" ++ atom ++ "')"
  | atomName atom => "Symbol.keyFor(" ++ atom ++ ")"
  | slice var start stop =>
    "((value) => \x7b if (Array.isArray(value)) \x7b return value.slice(" ++ start ++ ", " ++ stop ++
      ") \x7d if (typeof value === 'string') \x7b return value.substring(" ++ start ++ ", " ++
      stop ++ ") \x7d throw new TypeError(`cannot take [" ++ start ++ ":" ++ stop ++
      "] of $\x7bString(value)\x7d`) \x7d)(" ++ var ++ ")"
  | elementwise var op value =>
    var ++ ".map((element) => element " ++ op ++ " " ++ value ++ ")"
  | notEqual => "!=="
  | estimate lhs rhs => "(Math.round(" ++ lhs ++ ") === Math.round(" ++ rhs ++ "))"
  | estimateTo lhs precision rhs =>
    "(Math.round(" ++ lhs ++ " / " ++ precision ++ ") === Math.round(" ++ rhs ++ " / " ++
      precision ++ "))"
  | divMod var value =>
    "[Math.floor(" ++ var ++ " / " ++ value ++ "), " ++ var ++ " % " ++ value ++ "]"
  | factorial value =>
    "(() => \x7b let product = 1; for (let i = 2; i <= " ++ value ++
      "; i++) \x7b product *= i \x7d return product \x7d)()"
  | maybe => "Math.random() < " ++ defaultProbability ++ ") \x7b"
  | maybeWeighted probability => "Math.random() < " ++ probability ++ ") \x7b"
  | magnitude lhs sign rhs => renderMagnitude lhs sign defaultFactor rhs
  | magnitudeBy lhs sign factor rhs => renderMagnitude lhs sign factor rhs
  | bitShift lhs direction rhs => lhs ++ " " ++ direction.operator ++ " " ++ rhs
  | number value => value
  | comma => ","
  | operator value => value
  | comment value => value

end Construct

namespace Program

/-- The JavaScript of a program. -/
def render (program : Program) : String :=
  String.join (program.map Construct.render)

end Program

end Jawn
