import Jawn.Lexical
import Jawn.Text.Blank

/-!
# Values of a condition

A condition with one operator is read with all its values in one operand. `Condition.values` takes
that operand apart: every longest value in it, without white space at the ends, and none that is
blank. Text where no value starts is passed over.
-/

namespace Jawn.Condition

/-- The values in a text, with the white space around them. -/
def pieces (s : List Char) : List (List Char) :=
  match s with
  | [] => []
  | c :: rest =>
    match Lexical.conditionValue.ends (c :: rest) with
    | [] => pieces rest
    | left :: _ =>
      let piece := (c :: rest).take ((c :: rest).length - left.length)
      piece :: pieces (rest.drop (piece.length - 1))
termination_by s.length
decreasing_by
  · simp only [List.length_cons]; omega
  · simp only [List.length_drop, List.length_cons]; omega

/-- The values in an operand. -/
def values (operand : String) : List String :=
  (((pieces operand.toList).map trim).filter fun value => !value.isEmpty).map String.ofList

/-- One value without the white space at its ends. -/
def value (operand : String) : String :=
  String.ofList (trim operand.toList)

end Jawn.Condition
