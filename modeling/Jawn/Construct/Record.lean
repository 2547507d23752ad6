import Jawn.Construct.Basic

/-!
# Constructs as records

A construct is listed as its tag and its named fields, a program as one record per line.
-/

namespace Jawn

/-- The value of a field. -/
inductive Field where
  | text (value : String)
  | texts (values : List String)
  | comparison (value : Comparison)
  | flag (value : Bool)
  deriving DecidableEq, Repr

/-- A field as it is listed. A flag that is not set is not listed. -/
def Field.display (name : String) : Field → String
  | text value => s!", {name}: '{value}'"
  | texts values => s!", {name}: [" ++ ", ".intercalate (values.map fun v => s!"'{v}'") ++ "]"
  | comparison c => s!", {name}: '{c.operator} {c.value}'"
  | flag value => if value then s!", {name}: true" else ""

namespace Construct

/-- The fields of a construct with their names. -/
def fields : Construct → List (String × Field)
  | newline | space | closeCurly | closeParen | openCurly | openParen | openSquare | closeSquare
  | ifHead | elseHead | notEqual | maybe | comma => []
  | classHead name => [("name", .text name)]
  | subclassHead name parent => [("name", .text name), ("parent", .text parent)]
  | instantiation var cls => [("var", .text var), ("class", .text cls)]
  | functionHead name deferred => [("name", .text name), ("deferred", .flag deferred)]
  | methodCall callee method deferred =>
    [("callee", .text callee), ("method", .text method), ("deferred", .flag deferred)]
  | returned value => [("val", .text value)]
  | instanceTest var cls => [("var", .text var), ("class", .text cls)]
  | constant var value deferred =>
    [("var", .text var), ("val", .text value), ("deferred", .flag deferred)]
  | mutableVar var value deferred =>
    [("var", .text var), ("val", .text value), ("deferred", .flag deferred)]
  | varName var => [("var", .text var)]
  | className cls => [("class", .text cls)]
  | memberName member => [("member", .text member)]
  | oneOperator var op values =>
    [("var", .text var), ("operator", .text op), ("params", .texts values)]
  | twoOperators var first second =>
    [("var", .text var), ("first", .comparison first), ("second", .comparison second)]
  | quotedString quote value => [("delimiter", .text quote.display), ("val", .text value)]
  | atomConstant var atom => [("var", .text var), ("atom", .text atom)]
  | atomName atom => [("atom", .text atom)]
  | slice var start stop => [("var", .text var), ("start", .text start), ("end", .text stop)]
  | elementwise var op value =>
    [("var", .text var), ("operator", .text op), ("val", .text value)]
  | estimate lhs rhs => [("lhs", .text lhs), ("rhs", .text rhs)]
  | estimateTo lhs precision rhs =>
    [("lhs", .text lhs), ("rhs", .text rhs), ("precision", .text precision)]
  | divMod var value => [("var", .text var), ("val", .text value)]
  | factorial value => [("val", .text value)]
  | maybeWeighted probability => [("probability", .text probability)]
  | magnitude lhs sign rhs =>
    [("lhs", .text lhs), ("direction", .text sign.display), ("rhs", .text rhs)]
  | magnitudeBy lhs sign factor rhs =>
    [("lhs", .text lhs), ("direction", .text sign.display), ("factor", .text factor),
      ("rhs", .text rhs)]
  | bitShift lhs direction rhs =>
    [("lhs", .text lhs), ("direction", .text direction.display), ("rhs", .text rhs)]
  | number value => [("val", .text value)]
  | operator value => [("val", .text value)]
  | comment value => [("val", .text value)]

def record (c : Construct) : String :=
  "\x7btype: " ++ c.tag.name ++
    String.join (c.fields.map fun (name, field) => field.display name) ++ "\x7d"

end Construct

namespace Program

/-- A program as a list of records, one on a line. -/
def display : Program → String
  | [] => "[]"
  | program => "[\n" ++ String.join (program.map fun c => "  " ++ c.record ++ ",\n") ++ "]"

end Program

end Jawn
