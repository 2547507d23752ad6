import Jawn.Proofs.Balance

/-!
# The brackets of the output

The fragment of a construct has operands in it, but apart from these its brackets are fixed. If the
brackets of each operand are balanced, reading the fragment leaves the same brackets open as the
construct does for the check of a strict run:

* `Construct.settle_render`: one fragment;
* `Program.settle_render`: the fragments of a program, one after the other;
* `Nesting.check_eq_none_iff_render`: the check finds no fault if and only if the brackets of the
  JavaScript are balanced.
-/

namespace Jawn

/-- The bracket that a character stands for. -/
def Edge.ofChar? : Char → Option Edge
  | '(' => some (.opens .paren)
  | ')' => some (.closes .paren)
  | '[' => some (.opens .square)
  | ']' => some (.closes .square)
  | '\x7b' => some (.opens .curly)
  | '\x7d' => some (.closes .curly)
  | _ => none

/-- All brackets of a text, also those in strings and comments. -/
def textEdges (text : String) : List Edge :=
  text.toList.filterMap Edge.ofChar?

/-- The texts that a construct holds. -/
def Construct.texts : Construct → List String
  | newline | space | closeCurly | closeParen | openCurly | openParen | openSquare | closeSquare
  | ifHead | elseHead | notEqual | maybe | comma => []
  | classHead text | functionHead text _ | returned text | varName text | className text
  | memberName text | quotedString _ text | atomName text | factorial text | maybeWeighted text
  | number text | operator text | comment text => [text]
  | subclassHead name parent => [name, parent]
  | instantiation var cls | instanceTest var cls => [var, cls]
  | methodCall callee method _ => [callee, method]
  | constant var value _ | mutableVar var value _ | divMod var value => [var, value]
  | atomConstant var atom => [var, atom]
  | estimate lhs rhs | magnitude lhs _ rhs | bitShift lhs _ rhs => [lhs, rhs]
  | estimateTo lhs precision rhs => [lhs, precision, rhs]
  | magnitudeBy lhs _ factor rhs => [lhs, factor, rhs]
  | slice var start stop => [var, start, stop]
  | elementwise var op value => [var, op, value]
  | oneOperator var op values => var :: op :: values
  | twoOperators var first second =>
    [var, first.operator, first.value, second.operator, second.value]

theorem textEdges_append (a b : String) : textEdges (a ++ b) = textEdges a ++ textEdges b := by
  rw [textEdges, String.toList_append, List.filterMap_append]
  rfl

theorem settle_of_balanced {word : List Edge} (h : Balanced word) (opened : List Bracket) :
    settle opened word = some opened := by
  rw [← List.append_nil word, settle_append_of_balanced h]
  rfl

theorem balanced_intercalate {sep : String} {texts : List String}
    (hsep : Balanced (textEdges sep)) (h : ∀ t ∈ texts, Balanced (textEdges t)) :
    Balanced (textEdges (sep.intercalate texts)) := by
  induction texts with
  | nil => exact .nil
  | cons t texts ih =>
    rw [List.forall_mem_cons] at h
    cases texts with
    | nil =>
      rw [String.intercalate_singleton]
      exact h.1
    | cons u texts =>
      rw [String.intercalate_cons_cons, textEdges_append, textEdges_append]
      exact (h.1.append hsep).append (ih h.2)

namespace Construct

/-- Reading the fragment of a construct leaves the same brackets open as the construct does. -/
theorem settle_render {c : Construct} (h : ∀ t ∈ c.texts, Balanced (textEdges t))
    (opened : List Bracket) : settle opened (textEdges c.render) = settle opened c.edges := by
  cases c with
  | oneOperator var op values =>
    simp only [texts, List.forall_mem_cons] at h
    have hvalues : Balanced (textEdges (" || ".intercalate
        (values.map fun value => var ++ " " ++ op ++ " " ++ value))) := by
      have hspace : Balanced (textEdges " ") := by decide
      refine balanced_intercalate (by decide) (List.forall_mem_map.2 fun value hvalue => ?_)
      simp only [textEdges_append]
      exact (((h.1.append hspace).append h.2.1).append hspace).append (h.2.2 value hvalue)
    unfold render
    rw [textEdges_append, settle_append_of_balanced hvalues]
    rfl
  | functionHead _ deferred | methodCall _ _ deferred =>
    simp only [texts, List.forall_mem_cons] at h
    unfold render
    simp only [textEdges_append, settle_append, settle_of_balanced, h]
    cases deferred <;> rfl
  | constant _ _ deferred | mutableVar _ _ deferred =>
    simp only [texts, List.forall_mem_cons] at h
    unfold render renderDeclaration
    simp only [textEdges_append, settle_append, settle_of_balanced, h]
    cases deferred <;> rfl
  | quotedString quote value =>
    simp only [texts, List.forall_mem_cons] at h
    unfold render
    simp only [textEdges_append, settle_append, settle_of_balanced, h]
    cases quote <;> rfl
  | magnitude _ sign _ | magnitudeBy _ sign _ _ =>
    simp only [texts, List.forall_mem_cons] at h
    unfold render renderMagnitude
    cases sign <;> simp only [textEdges_append, settle_append, settle_of_balanced, h] <;> rfl
  | bitShift lhs direction rhs =>
    simp only [texts, List.forall_mem_cons] at h
    unfold render
    simp only [textEdges_append, settle_append, settle_of_balanced, h]
    cases direction <;> rfl
  | _ =>
    unfold render
    simp only [texts, List.forall_mem_cons] at h
    simp only [Comparison.display, textEdges_append, settle_append, settle_of_balanced, h]
    rfl

end Construct

theorem textEdges_render_cons (c : Construct) (program : Program) :
    textEdges (Program.render (c :: program)) =
      textEdges c.render ++ textEdges (Program.render program) := by
  rw [← textEdges_append]
  simp [Program.render, textEdges, String.toList_join]

/-- Reading the JavaScript of a program leaves the same brackets open as the program does. -/
theorem Program.settle_render {program : Program}
    (h : ∀ c ∈ program, ∀ t ∈ c.texts, Balanced (textEdges t)) (opened : List Bracket) :
    settle opened (textEdges program.render) = settle opened program.edges := by
  induction program generalizing opened with
  | nil => rfl
  | cons c program ih =>
    rw [List.forall_mem_cons] at h
    have hedges : edges (c :: program) = c.edges ++ edges program := List.flatMap_cons
    rw [textEdges_render_cons, hedges, settle_append, settle_append, Construct.settle_render h.1]
    congr 1
    funext opened'
    exact ih h.2 opened'

/-- Where the brackets of all operands are balanced and all conditions are started, the check of a
strict run finds no fault if and only if the brackets of the JavaScript are balanced. -/
theorem Nesting.check_eq_none_iff_render {program : List (Located Construct)}
    (htexts : ∀ c ∈ programOf program, ∀ t ∈ c.texts, Balanced (textEdges t))
    (hstarted : (programOf program).ConditionsStarted) :
    check program = none ↔ Balanced (textEdges (programOf program).render) := by
  have hedges : Balanced (textEdges (programOf program).render) ↔
      Balanced (programOf program).edges := by
    rw [balanced_iff, balanced_iff, Program.settle_render htexts]
  rw [hedges]
  exact ⟨fun h => (balanced_of_check h).1, fun h => check_of_balanced h hstarted⟩

/-- Brackets inside operands do not matter as long as they are balanced there. -/
theorem Nesting.check_eq_none_iff_render_slice :
    check [⟨.ifHead, ⟨0, 4⟩⟩, ⟨.space, ⟨4, 5⟩⟩, ⟨.oneOperator "x" "==" ["f(1)", "[2]"], ⟨5, 22⟩⟩,
      ⟨.slice "x" "1" "2", ⟨22, 28⟩⟩, ⟨.closeCurly, ⟨28, 29⟩⟩] = none ∧
    Balanced (textEdges (programOf [⟨.ifHead, ⟨0, 4⟩⟩, ⟨.space, ⟨4, 5⟩⟩,
      ⟨.oneOperator "x" "==" ["f(1)", "[2]"], ⟨5, 22⟩⟩, ⟨.slice "x" "1" "2", ⟨22, 28⟩⟩,
      ⟨.closeCurly, ⟨28, 29⟩⟩]).render) := by
  have hcheck : check [⟨.ifHead, ⟨0, 4⟩⟩, ⟨.space, ⟨4, 5⟩⟩,
      ⟨.oneOperator "x" "==" ["f(1)", "[2]"], ⟨5, 22⟩⟩, ⟨.slice "x" "1" "2", ⟨22, 28⟩⟩,
      ⟨.closeCurly, ⟨28, 29⟩⟩] = none := by decide
  exact ⟨hcheck, (check_eq_none_iff_render (by decide +kernel) (by decide)).1 hcheck⟩

end Jawn
