/-!
# Tags

A tag names the kind of a construct. Four kinds can be marked as deferred, and their tags carry
the mark.
-/

namespace Jawn

inductive Tag where
  | newline
  | space
  /-- Head of a class. -/
  | classHead
  /-- Head of a class with a parent. -/
  | subclassHead
  /-- A constant that holds a new instance of a class. -/
  | instantiation
  | closeCurly
  | closeParen
  | openCurly
  | openParen
  | openSquare
  | closeSquare
  /-- Head of a function without parameters. -/
  | functionHead (deferred : Bool)
  /-- A method call up to its opening parenthesis. -/
  | methodCall (deferred : Bool)
  | returned
  | instanceTest
  /-- Declaration of a constant. -/
  | constant (deferred : Bool)
  /-- Declaration of a variable that can change. -/
  | mutableVar (deferred : Bool)
  | varName
  | className
  | memberName
  | ifHead
  | elseHead
  /-- A condition that compares with several values by one operator. -/
  | oneOperator
  /-- A condition with two operators, each with its own value. -/
  | twoOperators
  | quotedString
  /-- A constant that holds an atom. -/
  | atomConstant
  /-- The name of an atom. -/
  | atomName
  /-- Part of an array or a string. -/
  | slice
  /-- Arithmetic on each element of an array. -/
  | elementwise
  | notEqual
  /-- Equality after rounding. -/
  | estimate
  /-- Equality after rounding to a multiple. -/
  | estimateTo
  /-- Quotient and remainder. -/
  | divMod
  | factorial
  /-- A condition that holds half of the time. -/
  | maybe
  | maybeWeighted
  | magnitude
  /-- Comparison of magnitudes with a factor of its own. -/
  | magnitudeBy
  | bitShift
  | number
  | comma
  | operator
  | comment
  deriving DecidableEq, Repr

namespace Tag

/-- The name of a tag in a stream of tokens. -/
def name : Tag → String
  | newline => "NEWLINE"
  | space => "SPACE"
  | classHead => "CLASS"
  | subclassHead => "CLASS_EXTENSION"
  | instantiation => "CLASS_INSTANTIATION"
  | closeCurly => "CLOSE_CURLY"
  | closeParen => "CLOSE_PARENTH"
  | openCurly => "OPEN_CURLY"
  | openParen => "OPEN_PARENTH"
  | openSquare => "OPEN_BRACKET"
  | closeSquare => "CLOSE_BRACKET"
  | functionHead _ => "FUNCTION_NOPARAM"
  | methodCall _ => "METHOD"
  | returned => "RETURN"
  | instanceTest => "INSTANCEOF"
  | constant _ => "VAR"
  | mutableVar _ => "VAR_MUT"
  | varName => "VAR_CALL"
  | className => "CLASS_CALL"
  | memberName => "MEMBER_ACCESS"
  | ifHead => "COND_INIT"
  | elseHead => "COND_ELSE"
  | oneOperator => "COND_MANY_SINGLE_OPERATOR"
  | twoOperators => "COND_MANY_MANY_OPERATOR"
  | quotedString => "STATIC_STRING"
  | atomConstant => "ATOM_INSTANTIATION"
  | atomName => "ATOM_PRINT"
  | slice => "RANGE"
  | elementwise => "ARRAY_ARITHMETIC"
  | notEqual => "NEQUAL"
  | estimate => "ESTIMATE"
  | estimateTo => "ESTIMATE_PRECISE"
  | divMod => "DIV_REMAIN"
  | factorial => "FACTORIAL"
  | maybe => "MAYBE"
  | maybeWeighted => "MAYBE_WEIGHTED"
  | magnitude => "MAGNITUDE"
  | magnitudeBy => "MAGNITUDE_PRECISE"
  | bitShift => "BITSHIFT"
  | number => "NUMBER"
  | comma => "COMMA"
  | operator => "OPERATOR"
  | comment => "LINE_COMMENT"

/-- The number of operands that follow a tag. -/
def arity : Tag → Nat
  | newline | space | closeCurly | closeParen | openCurly | openParen | openSquare | closeSquare
  | ifHead | elseHead | notEqual | maybe | comma => 0
  | classHead | functionHead _ | returned | varName | className | memberName | atomName | factorial
  | maybeWeighted | number | operator | comment => 1
  | subclassHead | instantiation | methodCall _ | instanceTest | constant _ | mutableVar _
  | quotedString | atomConstant | estimate | divMod => 2
  | oneOperator | slice | elementwise | estimateTo | magnitude | bitShift => 3
  | magnitudeBy => 4
  | twoOperators => 5

def isDeferred : Tag → Bool
  | functionHead deferred | methodCall deferred | constant deferred | mutableVar deferred => deferred
  | _ => false

/-- The name, with a mark if the construct is deferred. -/
def display (t : Tag) : String :=
  if t.isDeferred then t.name ++ "[deferred]" else t.name

/-- Every tag. -/
def all : List Tag :=
  [newline, space, classHead, subclassHead, instantiation, closeCurly, closeParen, openCurly,
    openParen, openSquare, closeSquare, functionHead false, functionHead true, methodCall false,
    methodCall true, returned, instanceTest, constant false, constant true, mutableVar false,
    mutableVar true, varName, className, memberName, ifHead, elseHead, oneOperator, twoOperators,
    quotedString, atomConstant, atomName, slice, elementwise, notEqual, estimate, estimateTo,
    divMod, factorial, maybe, maybeWeighted, magnitude, magnitudeBy, bitShift, number, comma,
    operator, comment]

/-- The tag that is displayed as `text`. -/
def ofDisplay? (text : String) : Option Tag :=
  all.find? fun t => t.display == text

end Tag

end Jawn
