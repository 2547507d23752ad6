import Jawn.Lexical
import Jawn.Tag

/-!
# The grammar

A form is the shape of a construct in the source: parts that are fixed, parts that are operands,
and at most one marker. A rule gives a form a name and the tag of its constructs.
`Grammar.rules` lists all rules; where two match equally long, the earlier one counts.
-/

namespace Jawn

/-- What a part of a form stands for. -/
inductive Role where
  | fixed
  /-- The sign of a deferred construct, if it is not empty. -/
  | marker
  | operand
  deriving DecidableEq, Repr

structure Part where
  role : Role
  pattern : Pattern

/-- The text that a part was read as. -/
structure Segment where
  role : Role
  text : List Char
  deriving DecidableEq, Repr

abbrev Form := List Part

/-- Reads the parts of a form at the front of a text. Each part tries its matches in order of
priority and goes back to the next one if the parts behind it do not fit. -/
def Form.read : Form → List Char → Option (List Segment)
  | [], _ => some []
  | part :: form, s =>
    (part.pattern.ends s).findSome? fun rest =>
      (Form.read form rest).map (⟨part.role, s.take (s.length - rest.length)⟩ :: ·)

structure Rule where
  name : String
  form : Form
  /-- The tag, given whether the marker is present. -/
  tag : Bool → Tag

namespace Grammar

open Lexical

def word (text : String) : Part :=
  ⟨.fixed, .text text.toList⟩

def fixed (pattern : Pattern) : Part :=
  ⟨.fixed, pattern⟩

def operand (pattern : Pattern) : Part :=
  ⟨.operand, pattern⟩

/-- An optional sign that marks a construct as deferred. -/
def marker : Part :=
  ⟨.marker, .optional (.text ['#'])⟩

/-- A rule whose constructs have only one tag. -/
def rule (name : String) (form : Form) (tag : Tag) : Rule :=
  ⟨name, form, fun _ => tag⟩

/-- All rules, the earlier before the later. -/
def rules : List Rule :=
  [rule "newline" [fixed (.optional (.text ['\r'])), word "\n"] .newline,
    rule "space" [fixed (.one fun c => c == ' ' || c == '\t')] .space,
    rule "line_comment" [operand (.seq (.text ['/', '/']) restOfLine)] .comment,
    rule "class_extension"
      [word "boul ", operand className, word " <- ", operand className, word " \x7b"]
      .subclassHead,
    rule "class" [word "boul ", operand className, word " \x7b"] .classHead,
    rule "class_instantiation" [word "jawn ", operand identifier, word " @ ", operand className]
      .instantiation,
    rule "instanceof" [operand identifier, word " ~ ", operand className] .instanceTest,
    rule "atom_instantiation" [word "jawn ", operand identifier, word " := :", operand identifier]
      .atomConstant,
    ⟨"var_mut", [word "jawn* ", operand identifier, word " := ", marker, operand restOfLine],
      .mutableVar⟩,
    ⟨"var", [word "jawn ", operand identifier, word " := ", marker, operand declaredValue],
      .constant⟩,
    ⟨"function_noparam", [word "fun", marker, word " ", operand functionName, word " \x7b"],
      .functionHead⟩,
    ⟨"method", [marker, operand memberPath, word ".", operand member, word "("], .methodCall⟩,
    rule "return" [word "return ", operand restOfLine] .returned,
    rule "cond_init" [word "if ("] .ifHead,
    rule "cond_else" [word "else \x7b"] .elseHead,
    rule "cond_many_many_operator"
      [operand identifier, word " ", operand comparison, word " ", operand conditionValue,
        word ",", fixed (.optional (.text [' '])), operand comparison, word " ",
        operand conditionValue, word ") \x7b"]
      .twoOperators,
    rule "cond_many_single_operator"
      [operand identifier, word " ", operand comparison, word " ", operand conditionValues,
        word ") \x7b"]
      .oneOperator,
    rule "maybe" [word "maybe) \x7b"] .maybe,
    rule "maybe_weighted" [word "maybe(", operand probability, word ")) \x7b"] .maybeWeighted,
    rule "static_string_double" [operand (.text ['"']), operand (quotedBody '"'), word "\""]
      .quotedString,
    rule "static_string_single" [operand (.text ['\'']), operand (quotedBody '\''), word "'"]
      .quotedString,
    rule "static_string_backtick" [operand (.text ['\x60']), operand templateBody, word "`"]
      .quotedString,
    rule "atom_print" [word ":", operand identifier, word ":"] .atomName,
    rule "range"
      [operand identifier, word "[", operand digits, word ":", operand digits, word "]"]
      .slice,
    rule "array_arithmetic"
      [operand identifier, word " .", operand arithmetic, word " ", operand value]
      .elementwise,
    rule "nequal" [word "=/="] .notEqual,
    rule "estimate_precise" [operand value, word " ~=[", operand number, word "] ", operand value]
      .estimateTo,
    rule "estimate" [operand value, word " ~= ", operand value] .estimate,
    rule "div_remain" [operand value, word " /% ", operand value] .divMod,
    rule "factorial" [operand digits, word "!"] .factorial,
    rule "magnitude_precise"
      [operand value, word " ", operand magnitudeSign, word "[", operand number, word "] ",
        operand value]
      .magnitudeBy,
    rule "magnitude" [operand value, word " ", operand magnitudeSign, word " ", operand value]
      .magnitude,
    rule "bitshift" [operand value, word " ", operand shiftWord, word " ", operand value]
      .bitShift,
    rule "var_call" [operand identifier] .varName,
    rule "class_call" [operand className] .className,
    rule "member_access" [word ".", operand member] .memberName,
    rule "number" [operand number] .number,
    rule "operator" [operand operator] .operator,
    rule "comma" [word ","] .comma,
    rule "open_parenth" [word "("] .openParen,
    rule "close_parenth" [word ")"] .closeParen,
    rule "open_curly" [word "\x7b"] .openCurly,
    rule "close_curly" [word "\x7d"] .closeCurly,
    rule "open_bracket" [word "["] .openSquare,
    rule "close_bracket" [word "]"] .closeSquare]

end Grammar

end Jawn
