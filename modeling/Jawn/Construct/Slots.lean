import Jawn.Condition
import Jawn.Construct.Basic

/-!
# Operand slots

Behind a tag stand its operands, in the order of its form. `Tag.slots` says for each tag which
operands it waits for and which construct they make: any text, or a member of a closed set.
-/

namespace Jawn

/-- What is still missing of a construct. -/
inductive Slots where
  | done (c : Construct)
  | text (next : String → Slots)
  | quote (next : Quote → Slots)
  | magnitude (next : Magnitude → Slots)
  | shift (next : Shift → Slots)

/-- The operands behind a tag and the construct they make. -/
def Tag.slots : Tag → Slots
  | newline => .done .newline
  | space => .done .space
  | classHead => .text fun name => .done (.classHead name)
  | subclassHead => .text fun name => .text fun parent => .done (.subclassHead name parent)
  | instantiation => .text fun var => .text fun cls => .done (.instantiation var cls)
  | closeCurly => .done .closeCurly
  | closeParen => .done .closeParen
  | openCurly => .done .openCurly
  | openParen => .done .openParen
  | openSquare => .done .openSquare
  | closeSquare => .done .closeSquare
  | functionHead deferred => .text fun name => .done (.functionHead name deferred)
  | methodCall deferred =>
    .text fun callee => .text fun method => .done (.methodCall callee method deferred)
  | returned => .text fun value => .done (.returned value)
  | instanceTest => .text fun var => .text fun cls => .done (.instanceTest var cls)
  | constant deferred => .text fun var => .text fun value => .done (.constant var value deferred)
  | mutableVar deferred =>
    .text fun var => .text fun value => .done (.mutableVar var value deferred)
  | varName => .text fun var => .done (.varName var)
  | className => .text fun cls => .done (.className cls)
  | memberName => .text fun member => .done (.memberName member)
  | ifHead => .done .ifHead
  | elseHead => .done .elseHead
  | oneOperator =>
    .text fun var => .text fun operator => .text fun values =>
      .done (.oneOperator var operator (Condition.values values))
  | twoOperators =>
    .text fun var => .text fun operator => .text fun value => .text fun operator' =>
      .text fun value' =>
        .done (.twoOperators var ⟨operator, Condition.value value⟩
          ⟨operator', Condition.value value'⟩)
  | quotedString => .quote fun quote => .text fun value => .done (.quotedString quote value)
  | atomConstant => .text fun var => .text fun atom => .done (.atomConstant var atom)
  | atomName => .text fun atom => .done (.atomName atom)
  | slice => .text fun var => .text fun start => .text fun stop => .done (.slice var start stop)
  | elementwise =>
    .text fun var => .text fun operator => .text fun value =>
      .done (.elementwise var operator value)
  | notEqual => .done .notEqual
  | estimate => .text fun lhs => .text fun rhs => .done (.estimate lhs rhs)
  | estimateTo =>
    .text fun lhs => .text fun precision => .text fun rhs => .done (.estimateTo lhs precision rhs)
  | divMod => .text fun var => .text fun value => .done (.divMod var value)
  | factorial => .text fun value => .done (.factorial value)
  | maybe => .done .maybe
  | maybeWeighted => .text fun probability => .done (.maybeWeighted probability)
  | magnitude =>
    .text fun lhs => .magnitude fun sign => .text fun rhs => .done (.magnitude lhs sign rhs)
  | magnitudeBy =>
    .text fun lhs => .magnitude fun sign => .text fun factor => .text fun rhs =>
      .done (.magnitudeBy lhs sign factor rhs)
  | bitShift =>
    .text fun lhs => .shift fun direction => .text fun rhs => .done (.bitShift lhs direction rhs)
  | number => .text fun value => .done (.number value)
  | comma => .done .comma
  | operator => .text fun value => .done (.operator value)
  | comment => .text fun value => .done (.comment value)

end Jawn
