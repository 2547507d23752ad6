import Jawn.Proofs.Shape
import Jawn.Proofs.Written

/-!
# Rival rules

Where two rules read a text of the same length, the earlier one counts. `Tag.rivals` names the few
constructs that can take a text from a later rule in this way; any other two rules have disjoint
languages.

* `Grammar.respectsKinds`: no class of the grammar tells characters of one kind apart;
* `Grammar.rules_apart`: two rules have no text in common, or the constructs of the earlier one are
  rivals of those of the later one;
* `Lexeme.next?_of_read`: a rule that reads the whole text gives the lexeme, if the text is no
  written form of a rival.
-/

namespace Jawn

namespace Kind

open Pattern

variable {d : Char}

theorem isLower_representative (c : Char) : (representative c).isLower = c.isLower := by
  rw [representative]
  split <;> [rfl; skip]
  split <;> [simp_all; skip]
  split <;> [simp_all; (split <;> simp_all)]

theorem isUpper_representative (c : Char) : (representative c).isUpper = c.isUpper := by
  rw [representative]
  split <;> [rfl; skip]
  split
  · rename_i hlower
    rw [isUpper_of_isLower hlower]
    rfl
  · split <;> [simp_all; (split <;> simp_all)]

theorem isDigit_representative (c : Char) : (representative c).isDigit = c.isDigit := by
  cases hdigit : c.isDigit with
  | false =>
    rw [representative, hdigit]
    split <;> [exact hdigit; skip]
    split <;> [rfl; (split <;> rfl)]
  | true =>
    rw [representative, isLower_of_isDigit hdigit, isUpper_of_isDigit hdigit, hdigit]
    split <;> [exact hdigit; rfl]

theorem isAlpha_representative (c : Char) : (representative c).isAlpha = c.isAlpha := by
  show ((representative c).isUpper || (representative c).isLower) = (c.isUpper || c.isLower)
  rw [isUpper_representative, isLower_representative]

theorem representative_beq (c : Char) (h : d ∈ literals) :
    (representative c == d) = (c == d) := by
  by_cases hc : c ∈ literals
  · rw [representative, if_pos hc]
  · have hother : ∀ e, e ∉ literals → (e == d) = false := by
      intro e he
      rw [beq_eq_false_iff_ne]
      rintro rfl
      exact he h
    rw [hother c hc, representative, if_neg hc]
    split
    · exact hother 'z' (by decide)
    split
    · exact hother 'Z' (by decide)
    split
    · exact hother '0' (by decide)
    · exact hother '?' (by decide)

end Kind

namespace Grammar

open Lexical Kind

/-- The classes of the grammar are made of letters, digits and literals. -/
theorem respectsKinds : ∀ rule ∈ rules, rule.form.pattern.RespectsKinds := by
  simp (disch := decide) only [rules, rule, List.forall_mem_cons, Form.pattern, List.foldr_cons,
    List.foldr_nil, word, operand, fixed, marker, Pattern.RespectsKinds, Pattern.optional,
    Pattern.plus, Pattern.anyOf, Pattern.fail, identifier, className, functionName, member,
    memberPath, digits, number, probability, value, comparison, arithmetic, operator, quotedBody,
    templateBody, quoted, conditionValue, conditionValues, restOfLine, declaredValue, magnitudeSign,
    shiftWord, RespectsKinds, isWord, isMember, isMemberStart, isLineEnd, Char.isAlphanum,
    isAlpha_representative, isLower_representative, isUpper_representative, isDigit_representative,
    representative_beq, bne, true_and, and_true, implies_true]
  simp

end Grammar

/-- The constructs of earlier rules that can have the same written form. -/
def Tag.rivals : Tag → List Tag
  | returned => [.instanceTest]
  | oneOperator => [.returned, .twoOperators]
  | twoOperators | elementwise | estimateTo | estimate | divMod | magnitudeBy | magnitude
  | bitShift => [.returned]
  | _ => []

namespace Grammar

/-- Two rules have disjoint languages, unless the constructs of the earlier one are rivals of those
of the later one. -/
theorem rules_apart : rules.Pairwise fun earlier later =>
    (∀ deferred deferred', earlier.tag deferred ∈ (later.tag deferred').rivals) ∨
      Shape.apart (Shape.ofPattern earlier.form.pattern) (Shape.ofPattern later.form.pattern) =
        true := by
  decide +kernel

theorem not_nullable : ∀ rule ∈ rules, (Shape.ofPattern rule.form.pattern).nullable = false := by
  decide +kernel

/-- No rule matches the empty text. -/
theorem ne_nil_of_matches {rule : Rule} (hrule : rule ∈ rules) {s : List Char}
    (h : rule.form.pattern.Matches s) : s ≠ [] := by
  rintro rfl
  have hnullable : (Shape.ofPattern rule.form.pattern).nullable = true :=
    Shape.runs_of_matches (respectsKinds rule hrule) h
  rw [not_nullable rule hrule] at hnullable
  cases hnullable

/-- A text of a rule is a written form of its tag. -/
theorem written_of_matches {rule : Rule} {s : List Char} (hrule : rule ∈ rules)
    (h : rule.form.pattern.Matches s) :
    ∃ deferred operands, Written (rule.tag deferred) operands (String.ofList s) := by
  obtain ⟨segments, hreads, rfl⟩ := Form.exists_reads_of_matches h
  exact ⟨_, _, Lexeme.written_of_reads rule hrule segments hreads⟩

end Grammar

/-- If a rule reads the whole text and the text is no written form of a rival, it is a lexeme of
this rule. -/
theorem Lexeme.next?_of_read {l : Lexeme} {s : List Char} (hrule : l.rule ∈ Grammar.rules)
    (hread : Form.read l.rule.form s = some l.segments) (htext : l.text = s)
    (hrivals : ∀ rival ∈ l.tag.rivals, ∀ operands, ¬ Written rival operands (String.ofList s)) :
    next? s = some l := by
  obtain ⟨before, after, hrules⟩ := List.append_of_mem hrule
  have hmatches : l.rule.form.pattern.Matches s := by
    rw [← htext]
    exact Form.matches_of_reads (Form.reads_of_read hread).1
  refine next?_eq_of_first hrules hread htext (Grammar.ne_nil_of_matches hrule hmatches) ?_
  intro earlier hearlier hmatches'
  have hmem : earlier ∈ Grammar.rules := by simp [hrules, hearlier]
  have hpairs := Grammar.rules_apart
  rw [hrules, List.pairwise_append] at hpairs
  rcases hpairs.2.2 earlier hearlier l.rule List.mem_cons_self with hrival | hapart
  · obtain ⟨deferred, operands, hwritten⟩ := Grammar.written_of_matches hmem hmatches'
    exact hrivals _ (hrival deferred _) operands hwritten
  · exact Shape.not_matches_of_apart (Grammar.respectsKinds earlier hmem)
      (Grammar.respectsKinds l.rule hrule) hapart hmatches' hmatches

end Jawn
