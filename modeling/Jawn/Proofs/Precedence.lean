import Jawn.Proofs.Declarations
import Jawn.Proofs.Flatten
import Jawn.Proofs.Lines

/-!
# Which rule wins

Of all rules that read something at a place, the one that reads most gives the lexeme. Mostly the
first few characters settle which rules come into question, because no other rule has a text that
starts in this way and goes on:

* `Grammar.not_matches_of_prolonged`: a rule that has no such text does not go on;
* `Lexeme.reach_le_of_conditionHead`: behind a variable and a comparison only three rules go on;
* `Lexeme.exists_oneOperator`: a condition with two operators can be read with one operator, up to
  the same place;
* `Lexeme.next?_of_twoOperators`: it is read with two operators, unless it is a returned value;
* `Grammar.not_matches_of_atomHead`: no rule goes on behind the declaration of an atom;
* `tokenize_atomDeclaration`: so the tokens of what follows do not depend on it.
-/

namespace Jawn

open Pattern Lexical

/-! ## Texts that go on -/

/-- Texts that go on behind a text of the pattern, with a character that is not of a class. -/
def Pattern.prolonged (p : Pattern) (ok : Char → Bool) : Pattern :=
  .seq p (.seq (.one fun c => !ok c) (.many fun _ => true))

theorem Pattern.prolonged_respectsKinds {p : Pattern} {ok : Char → Bool} (hp : p.RespectsKinds)
    (hok : Jawn.RespectsKinds ok) : (p.prolonged ok).RespectsKinds :=
  ⟨hp, fun c => congrArg not (hok c), fun _ => rfl⟩

theorem Pattern.matches_prolonged {p : Pattern} {ok : Char → Bool} {t u : List Char}
    (ht : p.Matches t) (hu : Stops ok u) (hne : u ≠ []) : (p.prolonged ok).Matches (t ++ u) := by
  obtain ⟨c, u, rfl⟩ := List.exists_cons_of_ne_nil hne
  refine .seq ht (matches_leading.2 ⟨c, u, ?_, fun _ _ => rfl, rfl⟩)
  rw [stops_cons.1 hu]
  rfl

theorem Lexical.isWord_respectsKinds : RespectsKinds isWord := by
  intro c
  simp (disch := decide) only [isWord, Char.isAlphanum, Kind.isAlpha_representative,
    Kind.isDigit_representative, Kind.representative_beq]

theorem Lexical.identifier_respectsKinds : identifier.RespectsKinds :=
  ⟨Kind.isLower_representative, isWord_respectsKinds⟩

namespace Grammar

/-- A rule has no texts that start with a text of the pattern and go on behind it. -/
def EndsWith (p : Pattern) (ok : Char → Bool) (rule : Rule) : Prop :=
  Shape.apart (Shape.ofPattern rule.form.pattern) (Shape.ofPattern (p.prolonged ok)) = true

instance (p : Pattern) (ok : Char → Bool) (rule : Rule) : Decidable (EndsWith p ok rule) :=
  inferInstanceAs (Decidable (_ = true))

theorem not_matches_of_prolonged {rule : Rule} (hrule : rule ∈ rules) {p : Pattern}
    {ok : Char → Bool} (hp : p.RespectsKinds) (hok : RespectsKinds ok) (hends : EndsWith p ok rule)
    {t u : List Char} (ht : p.Matches t) (hu : Stops ok u) (hne : u ≠ []) :
    ¬ rule.form.pattern.Matches (t ++ u) := by
  intro h
  exact Shape.not_matches_of_apart (respectsKinds rule hrule) (prolonged_respectsKinds hp hok)
    hends h (matches_prolonged ht hu hne)

end Grammar

/-! ## Conditions with two operators -/

namespace Grammar

/-- A variable and a comparison, with a space behind each. -/
def conditionHead : Pattern :=
  .seq identifier (.seq (.text [' ']) (.seq comparison (.text [' '])))

theorem conditionHead_respectsKinds : conditionHead.RespectsKinds := by
  refine ⟨identifier_respectsKinds, trivial, ?_, trivial⟩
  simp [comparison, anyOf, fail, Pattern.RespectsKinds, RespectsKinds]

theorem rules_conditionHead : ∀ rule ∈ rules,
    rule.name ∈ ["return", "cond_many_many_operator", "cond_many_single_operator"] ∨
      EndsWith conditionHead (fun _ => false) rule := by
  decide +kernel

/-- The rule of conditions with two operators comes before the one of those with one operator. -/
theorem rules_ordered : rules.Pairwise fun earlier later =>
    earlier.name ≠ "cond_many_single_operator" ∨ later.name ≠ "cond_many_many_operator" := by
  decide

end Grammar

theorem Condition.matches_of_comparison {u : List Char} (h : comparison.Matches u) :
    conditionValue.Matches u := by
  obtain ⟨t, ht, rfl⟩ := matches_anyOf.1 h
  simp only [List.mem_cons, List.not_mem_nil, or_false] at ht
  rcases ht with rfl | rfl | rfl | rfl | rfl | rfl | rfl | rfl <;> decide

namespace Lexeme

variable {s t r : List Char} {l m : Lexeme}

/-- Behind a variable and a comparison only three rules go on. -/
theorem reach_le_of_conditionHead (ht : Grammar.conditionHead.Matches t) {rule : Rule}
    (hrule : rule ∈ Grammar.rules)
    (hname : rule.name ∉ ["return", "cond_many_many_operator", "cond_many_single_operator"])
    (r : List Char) : reach (t ++ r) rule ≤ t.length := by
  have hends := (Grammar.rules_conditionHead rule hrule).resolve_left hname
  refine reach_append_le fun u more hne _ => ?_
  exact Grammar.not_matches_of_prolonged hrule Grammar.conditionHead_respectsKinds (fun _ => rfl)
    hends ht (fun _ _ => rfl) hne

/-- So a lexeme that goes on there comes from one of them. -/
theorem name_of_conditionHead (ht : Grammar.conditionHead.Matches t) (h : next? (t ++ r) = some l)
    (hlt : t.length < l.text.length) :
    l.rule.name ∈ ["return", "cond_many_many_operator", "cond_many_single_operator"] := by
  by_contra hname
  obtain ⟨hread, -, before, after, hrules, -, -⟩ := next?_eq_some_iff.1 h
  have hreach : reach (t ++ r) l.rule = l.text.length := reach_of_read hread
  have hstop := reach_le_of_conditionHead ht (by simp [hrules]) hname r
  omega

/-- What the rule of conditions with two operators has read: the values from the first one on are
also values of one operator. -/
theorem exists_of_ofName?_twoOperators (h : ofName? "cond_many_many_operator" s = some l) :
    l.tag = .twoOperators ∧ ∃ var op value op' value' values rest,
      l.operands = [var, op, value, op', value'] ∧ identifier.Accepts var ∧
      comparison.Accepts op ∧ conditionValues.Accepts values ∧
      l.text = var.toList ++ (" ".toList ++ (op.toList ++ (" ".toList ++ (values.toList ++
        ") \x7b".toList)))) ∧ s = l.text ++ rest := by
  obtain ⟨htag, operands, text, rest, hoperands, hwritten, htext, hs⟩ :=
    written_of_ofName? .twoOperators rfl (fun _ => rfl) h
  refine ⟨htag, ?_⟩
  cases hwritten with
  | @twoOperators gap var op value op' value' hgap hvar hop hvalue hop' hvalue' =>
    have hblank : conditionValue.Matches [' '] := by decide
    have hright := Condition.matches_append (Condition.matches_of_comparison hop')
      (Condition.matches_append hblank hvalue')
    have hsecond :
        conditionValue.Matches (gap.toList ++ (op'.toList ++ ([' '] ++ value'.toList))) := by
      rcases hgap with rfl | rfl
      · exact hright
      · exact Condition.matches_append hblank hright
    have hvalues : conditionValues.Matches (value.toList ++ ([','] ++ (gap.toList ++
        (op'.toList ++ ([' '] ++ value'.toList))) ++ [])) :=
      .seq hvalue (.starCons (.seq (.text _) hsecond) .starNil)
    refine ⟨var, op, value, op', value', value ++ "," ++ gap ++ op' ++ " " ++ value', rest,
      hoperands, hvar, hop, ?_, ?_, htext ▸ hs⟩
    · simpa [Accepts] using hvalues
    · rw [htext]
      simp

/-- A condition with two operators can be read with one operator, up to the same place. -/
theorem exists_oneOperator (h : ofName? "cond_many_many_operator" s = some l) :
    ∃ m, ofName? "cond_many_single_operator" s = some m ∧ m.text = l.text := by
  obtain ⟨-, var, op, _, _, _, values, rest, -, hvar, hop, hvalues, htext, hs⟩ :=
    exists_of_ofName?_twoOperators h
  have hread : Form.read [Grammar.operand identifier, Grammar.word " ", Grammar.operand comparison,
        Grammar.word " ", Grammar.operand conditionValues, Grammar.word ") \x7b"]
      (var.toList ++ (" ".toList ++ (op.toList ++ (" ".toList ++ (values.toList ++
        (") \x7b".toList ++ rest)))))) =
      some [⟨.operand, var.toList⟩, ⟨.fixed, " ".toList⟩, ⟨.operand, op.toList⟩,
        ⟨.fixed, " ".toList⟩, ⟨.operand, values.toList⟩, ⟨.fixed, ") \x7b".toList⟩] := by
    have hvar := prefers_identifier (r := " ".toList ++ (op.toList ++ (" ".toList ++
      (values.toList ++ (") \x7b".toList ++ rest))))) hvar (stops_word (by decide))
    have hop := prefers_comparison (r := " ".toList ++ (values.toList ++ (") \x7b".toList ++ rest)))
      hop (stops_word (by decide))
    have hvalues := prefers_conditionValues (r := ") \x7b".toList ++ rest) hvalues
      (stops_word (by decide)) (stops_word (by decide))
    exact Form.read_cons_of_prefers hvar (Form.read_cons_of_prefers prefers_text
      (Form.read_cons_of_prefers hop (Form.read_cons_of_prefers prefers_text
        (Form.read_cons_of_prefers hvalues (Form.read_cons_of_prefers prefers_text rfl)))))
  rw [htext] at hs
  simp only [List.append_assoc] at hs
  rw [hs]
  refine ⟨⟨_, _⟩, ofName?_eq_some_iff.2 ⟨rfl, hread, ?_⟩, ?_⟩
  · simp [text]
  · rw [htext]
    simp [text]

/-- What comes next has been read by the rule of its name. -/
theorem ofName?_of_next? (h : next? s = some l) : ofName? l.rule.name s = some l := by
  obtain ⟨hread, hne, before, after, hrules, -, -⟩ := next?_eq_some_iff.1 h
  have hmem : l.rule ∈ Grammar.rules := by simp [hrules]
  exact ofName?_eq_some_iff.2 ⟨Grammar.named_of_mem hmem, hread, hne⟩

/-- A lexeme that a rule reads is not longer than the one that comes next. -/
theorem exists_next?_of_ofName? {name : String} (h : ofName? name s = some l) :
    ∃ m, next? s = some m ∧ l.text.length ≤ m.text.length := by
  obtain ⟨hnamed, hread, hne⟩ := ofName?_eq_some_iff.1 h
  have hmem : l.rule ∈ Grammar.rules := List.mem_of_find?_eq_some hnamed
  cases hnext : next? s with
  | none =>
    rw [next?, firstLongest_eq_none_iff, List.filterMap_eq_nil_iff] at hnext
    have hnone := hnext _ hmem
    rw [ofRule?_eq_some_iff.2 ⟨rfl, hread, hne⟩] at hnone
    cases hnone
  | some m =>
    have hreach : reach s l.rule = l.text.length := reach_of_read hread
    exact ⟨m, rfl, hreach ▸ reach_le_of_next? hnext hmem⟩

/-- Of two rules that read equally much the later one does not give the lexeme. -/
theorem length_lt_of_ordered {earlier later : String} (h : ofName? earlier s = some l)
    (hnext : next? s = some m) (hname : m.rule.name = later) (hne : earlier ≠ later)
    (hordered : Grammar.rules.Pairwise fun rule rule' =>
      rule.name ≠ later ∨ rule'.name ≠ earlier) : l.text.length < m.text.length := by
  obtain ⟨hnamed, hread, -⟩ := ofName?_eq_some_iff.1 h
  obtain ⟨-, -, before, after, hrules, hbefore, -⟩ := next?_eq_some_iff.1 hnext
  have hmem : l.rule ∈ Grammar.rules := List.mem_of_find?_eq_some hnamed
  have hearlier : l.rule.name = earlier := by simpa using List.find?_some hnamed
  have hreach : reach s l.rule = l.text.length := reach_of_read hread
  rw [← hreach]
  rw [hrules] at hmem hordered
  rcases List.mem_append.1 hmem with hmem | hmem
  · exact hbefore _ hmem
  rcases List.mem_cons.1 hmem with heq | hmem
  · exact absurd (hearlier.symm.trans ((congrArg Rule.name heq).trans hname)) hne
  · have hafter := (List.pairwise_cons.1 (List.pairwise_append.1 hordered).2.1).1 _ hmem
    exact absurd hafter (by simp [hname, hearlier])

/-- What the rule of returned values reads starts with its word. -/
theorem exists_of_ofName?_return (h : ofName? "return" s = some l) :
    l.tag = .returned ∧ ∃ rest, s = "return".toList ++ ' ' :: rest := by
  obtain ⟨htag, operands, text, rest, -, hwritten, -, hs⟩ :=
    written_of_ofName? .returned rfl (fun _ => rfl) h
  cases hwritten with
  | @returned value hvalue => exact ⟨htag, value.toList ++ rest, by simp [hs]⟩

/-- Where a condition with two operators can be read, so can one with one operator, which takes up
the same text. The latter never comes next, and unless the variable is the word that returns a
value, the former does. -/
theorem next?_of_twoOperators {s : List Char} {l : Lexeme}
    (h : ofName? "cond_many_many_operator" s = some l) :
    l.tag = .twoOperators ∧
      (∃ single, ofName? "cond_many_single_operator" s = some single ∧ single.text = l.text) ∧
      ∃ var op value op' value' m, l.operands = [var, op, value, op', value'] ∧
        next? s = some m ∧ m.tag ≠ .oneOperator ∧ (var ≠ "return" → m = l) := by
  obtain ⟨htag, var, op, value, op', value', values, rest, hoperands, hvar, hop, -, htext, hs⟩ :=
    exists_of_ofName?_twoOperators h
  obtain ⟨m, hnext, hle⟩ := exists_next?_of_ofName? h
  refine ⟨htag, exists_oneOperator h, var, op, value, op', value', m, hoperands, hnext, ?_⟩
  have hhead : Grammar.conditionHead.Matches (var.toList ++ ([' '] ++ (op.toList ++ [' ']))) :=
    .seq hvar (.seq (.text _) (.seq hop (.text _)))
  have hs' : s = var.toList ++ ([' '] ++ (op.toList ++ [' '])) ++
      (values.toList ++ (") \x7b".toList ++ rest)) := by
    rw [hs, htext]
    simp
  have hlt : (var.toList ++ ([' '] ++ (op.toList ++ [' ']))).length < m.text.length := by
    refine Nat.lt_of_lt_of_le ?_ hle
    simp only [htext, List.length_append, String.reduceToList, List.length_cons, List.length_nil]
    omega
  have hname := name_of_conditionHead hhead (hs' ▸ hnext) hlt
  have hread := ofName?_of_next? hnext
  simp only [List.mem_cons, List.not_mem_nil, or_false] at hname
  rcases hname with hname | hname | hname <;> rw [hname] at hread
  · obtain ⟨hreturned, tail, htail⟩ := exists_of_ofName?_return hread
    refine ⟨by simp [hreturned], fun hne => absurd ?_ hne⟩
    have hwords : var.toList ++ ' ' :: (op.toList ++ (" ".toList ++ (values.toList ++
        (") \x7b".toList ++ rest)))) = "return".toList ++ ' ' :: tail := by
      rw [← htail, hs']
      simp
    obtain ⟨hvar, -⟩ := append_cons_inj (space_notMem_identifier hvar) (by decide) hwords
    exact String.toList_inj.1 hvar
  · obtain rfl := Option.some.inj (h.symm.trans hread)
    exact ⟨by simp [htag], fun _ => rfl⟩
  · -- Both rules read the same text, so the earlier one would have been chosen.
    obtain ⟨single, hsingle, hsame⟩ := exists_oneOperator h
    obtain rfl := Option.some.inj (hread.symm.trans hsingle)
    have hlt := length_lt_of_ordered h hnext hname (by decide) Grammar.rules_ordered
    rw [hsame] at hlt
    exact absurd hlt (Nat.lt_irrefl _)

/-- A comma in a string does not make it a condition with one operator. -/
theorem next?_of_twoOperators_string :
    (ofName? "cond_many_many_operator" "x > 1,< 'a, b') \x7b return x".toList).map operands =
        some ["x", ">", "1", "<", "'a, b'"] ∧
      ∃ m, next? "x > 1,< 'a, b') \x7b return x".toList = some m ∧ m.tag = .twoOperators := by
  have hread : (ofName? "cond_many_many_operator" "x > 1,< 'a, b') \x7b return x".toList).map
      operands = some ["x", ">", "1", "<", "'a, b'"] := by
    decide +kernel
  refine ⟨hread, ?_⟩
  obtain ⟨l, hl, hoperands⟩ := Option.map_eq_some_iff.1 hread
  obtain ⟨htag, -, var, op, value, op', value', m, heq, hnext, -, hwins⟩ :=
    next?_of_twoOperators hl
  obtain ⟨rfl, -⟩ : "x" = var ∧ _ := by simpa [hoperands] using heq
  exact ⟨m, hnext, hwins (by decide) ▸ htag⟩

end Lexeme

/-! ## Declarations of atoms -/

/-- The declaration of a constant whose value is an atom. -/
def atomDeclaration (x atom : String) : String :=
  "jawn " ++ x ++ " := :" ++ atom

theorem toList_atomDeclaration (x atom : String) : (atomDeclaration x atom).toList =
    "jawn ".toList ++ (x.toList ++ (" := :".toList ++ atom.toList)) := by
  simp [atomDeclaration]

namespace Grammar

/-- The declarations of constants whose value is an atom. -/
def atomHead : Pattern :=
  .seq (.text "jawn ".toList) (.seq identifier (.seq (.text " := :".toList) identifier))

theorem atomHead_respectsKinds : atomHead.RespectsKinds :=
  ⟨trivial, identifier_respectsKinds, trivial, identifier_respectsKinds⟩

theorem rules_atomHead : ∀ rule ∈ rules, EndsWith atomHead isWord rule := by
  decide +kernel

theorem atomHead_matches {x atom : String} (hx : identifier.Accepts x)
    (hatom : identifier.Accepts atom) : atomHead.Matches (atomDeclaration x atom).toList := by
  rw [toList_atomDeclaration]
  exact .seq (.text _) (.seq hx (.seq (.text _) hatom))

/-- No rule goes on behind the declaration of an atom. -/
theorem not_matches_of_atomHead {rule : Rule} (hrule : rule ∈ rules) {x atom : String}
    (hx : identifier.Accepts x) (hatom : identifier.Accepts atom) {u : List Char}
    (hu : Stops isWord u) (hne : u ≠ []) :
    ¬ rule.form.pattern.Matches ((atomDeclaration x atom).toList ++ u) :=
  not_matches_of_prolonged hrule atomHead_respectsKinds isWord_respectsKinds
    (rules_atomHead rule hrule) (atomHead_matches hx hatom) hu hne

end Grammar

theorem Pattern.Stops.of_append {ok : Char → Bool} {u more : List Char}
    (h : Stops ok (u ++ more)) : Stops ok u := by
  cases u with
  | nil => exact stops_nil
  | cons c u => exact stops_cons.2 (stops_cons.1 h)

/-- The lexeme of the declaration of an atom, whatever follows it. -/
theorem next?_atomDeclaration {x atom : String} {rest : List Char} (hx : identifier.Accepts x)
    (hatom : identifier.Accepts atom) (hrest : Stops isWord rest) :
    ∃ l, Lexeme.next? ((atomDeclaration x atom).toList ++ rest) = some l ∧
      l.tag = .atomConstant ∧ l.segments = [⟨.fixed, "jawn ".toList⟩, ⟨.operand, x.toList⟩,
        ⟨.fixed, " := :".toList⟩, ⟨.operand, atom.toList⟩] := by
  have hcovers := Form.covers_nil |>.operand (prefers_identifier hatom stops_nil)
    |>.word (k := " := :") |>.operand (prefers_identifier hx (stops_word (by decide)))
    |>.word (k := "jawn ")
  rw [List.append_nil] at hcovers
  rw [Lexeme.next?_append, toList_atomDeclaration]
  · refine ⟨⟨Grammar.rule "atom_instantiation" [Grammar.word "jawn ", Grammar.operand identifier,
      Grammar.word " := :", Grammar.operand identifier] .atomConstant, _⟩,
      Lexeme.next?_of_read ?_ hcovers.read_eq hcovers.text_eq ?_, rfl, rfl⟩
    · exact List.mem_of_find?_eq_some (rfl : Grammar.named "atom_instantiation" = _)
    · exact fun _ hrival => absurd hrival List.not_mem_nil
  · intro rule hrule
    refine Lexeme.reach_append_le fun u more hne heq => ?_
    rw [heq] at hrest
    exact Grammar.not_matches_of_atomHead hrule hx hatom hrest.of_append hne

namespace Position

theorem after_of_notMem {t : List Char} (h : '\n' ∉ t) (p : Position) :
    p.after t = ⟨p.offset + byteSize t, p.row, p.column + t.length⟩ := by
  induction t generalizing p with
  | nil => rfl
  | cons c t ih =>
    rw [List.mem_cons, not_or] at h
    rw [after_cons, ih h.2, advance, if_neg (Ne.symm h.1), byteSize_cons, List.length_cons]
    simp only [Nat.add_assoc, Nat.add_comm 1]

/-- Positions further on in a row are in the same row, and as far on in it while they are in the
first row. -/
theorem after_moved (n k : Nat) (p : Position) (t : List Char) :
    (Position.mk (n + p.offset) p.row (k + p.column)).after t = ⟨n + (p.after t).offset,
      (p.after t).row, if (p.after t).row = p.row then k + (p.after t).column
        else (p.after t).column⟩ := by
  induction t generalizing p with
  | nil => simp
  | cons c t ih =>
    by_cases hc : c = '\n'
    · have hrow := row_after (p.advance c) t
      have hnext : (p.advance c).row = p.row + 1 := by rw [advance, if_pos hc]
      have hadvance : (Position.mk (n + p.offset) p.row (k + p.column)).advance c =
          ⟨n + (p.advance c).offset, 0 + (p.advance c).row, (p.advance c).column⟩ := by
        simp only [advance, if_pos hc, Nat.add_assoc, Nat.zero_add]
      rw [after_cons, after_cons, hadvance, after_shift, if_neg (by omega), Nat.zero_add]
    · have hnext : (p.advance c).row = p.row := by rw [advance, if_neg hc]
      have hadvance : (Position.mk (n + p.offset) p.row (k + p.column)).advance c =
          ⟨n + (p.advance c).offset, (p.advance c).row, k + (p.advance c).column⟩ := by
        simp only [advance, if_neg hc, Nat.add_assoc]
      rw [after_cons, after_cons, hadvance, ih, hnext]

/-- A position behind a part of a row. -/
theorem after_append_of_notMem {t : List Char} (h : '\n' ∉ t) (u : List Char) :
    ({} : Position).after (t ++ u) = ⟨byteSize t + (({} : Position).after u).offset,
      (({} : Position).after u).row,
      if (({} : Position).after u).row = 1 then t.length + (({} : Position).after u).column
        else (({} : Position).after u).column⟩ := by
  have hstart : ({} : Position).after t = ⟨byteSize t + 0, 1, t.length + 1⟩ := by
    rw [after_of_notMem h, Nat.zero_add, Nat.add_comm 1]
    rfl
  rw [after_append, hstart]
  exact after_moved (byteSize t) t.length {} u

end Position

/-- The declaration of an atom is the first lexeme of a source, with its variable and its atom, and
no rule reads on into what follows. So the tokens of what follows, or its character at fault, are
those that it has alone, moved behind the declaration. -/
theorem tokenize_atomDeclaration {x atom rest : String} (hx : identifier.Accepts x)
    (hatom : identifier.Accepts atom) (hrest : Stops isWord rest.toList) :
    (∃ l, Lexeme.next? (atomDeclaration x atom ++ rest).toList = some l ∧
      l.tag = .atomConstant ∧ l.operands = [x, atom] ∧ l.text = (atomDeclaration x atom).toList) ∧
    (∀ rule ∈ Grammar.rules, ∀ u more, rest.toList = u ++ more →
      rule.form.pattern.Matches ((atomDeclaration x atom).toList ++ u) → u = []) ∧
    (∀ tokens, tokenize rest = .ok tokens → tokenize (atomDeclaration x atom ++ rest) = .ok
      ([⟨.tag .atomConstant, ⟨0, (atomDeclaration x atom).utf8ByteSize⟩⟩,
        ⟨.operand x, ⟨5, 5 + x.utf8ByteSize⟩⟩,
        ⟨.operand atom, ⟨10 + x.utf8ByteSize, (atomDeclaration x atom).utf8ByteSize⟩⟩] ++
          tokens.map (Located.shift (atomDeclaration x atom).utf8ByteSize))) ∧
    ∀ fault, tokenize rest = .error fault → ∃ c p fault', fault = .unexpectedCharacter c p ∧
      tokenize (atomDeclaration x atom ++ rest) = .error fault' ∧
      fault' = .unexpectedCharacter c ⟨(atomDeclaration x atom).utf8ByteSize + p.offset, p.row,
        if p.row = 1 then (atomDeclaration x atom).length + p.column else p.column⟩ ∧
      fault'.span = fault.span.shift (atomDeclaration x atom).utf8ByteSize := by
  obtain ⟨l, hnext, htag, hsegments⟩ := next?_atomDeclaration hx hatom hrest
  have htext : l.text = (atomDeclaration x atom).toList := by
    rw [Lexeme.text, hsegments, toList_atomDeclaration]
    simp
  have hscan : Lexeme.scan (atomDeclaration x atom ++ rest).toList =
      ([l] ++ (Lexeme.scan rest.toList).1, (Lexeme.scan rest.toList).2) := by
    rw [String.toList_append, Lexeme.scan_of_next? hnext (by rw [htext]), List.singleton_append]
  have htext' : (atomDeclaration x atom).toList = [l].flatMap Lexeme.text := by
    rw [List.flatMap_singleton, htext]
  refine ⟨⟨l, by rw [String.toList_append, hnext], htag, ?operands, htext⟩, ?munch, ?ok, ?error⟩
  case operands => simp [Lexeme.operands, hsegments]
  case munch =>
    intro rule hrule u more heq hmatches
    by_contra hne
    rw [heq] at hrest
    exact Grammar.not_matches_of_atomHead hrule hx hatom hrest.of_append hne hmatches
  case ok =>
    intro tokens h
    rw [tokenize_append_of_scan htext' hscan h, Lexeme.stream, Lexeme.stream, List.dropLast_concat,
      Lexeme.tokens, htag, hsegments, htext]
    have hword : byteSize "jawn ".toList = 5 := rfl
    have hword' : byteSize " := :".toList = 5 := rfl
    have hstart : 5 + byteSize x.toList + 5 = 10 + byteSize x.toList := by omega
    have hstop : 10 + byteSize x.toList + byteSize atom.toList =
        5 + (byteSize x.toList + (5 + byteSize atom.toList)) := by omega
    simp only [utf8ByteSize_eq, toList_atomDeclaration, Lexeme.operandTokens, reduceCtorEq,
      if_false, if_true, String.ofList_toList, byteSize_append, hword, hword', Nat.zero_add,
      hstart, hstop]
  case error =>
    intro fault h
    obtain ⟨c, t, rfl, hall⟩ := tokenize_append_of_scan_error htext' hscan h
    have hline : '\n' ∉ (atomDeclaration x atom).toList :=
      not_mem_of_matches (Grammar.atomHead_matches hx hatom) rfl
    rw [Position.after_append_of_notMem hline, ← utf8ByteSize_eq, String.length_toList] at hall
    refine ⟨c, _, _, rfl, hall, rfl, ?_⟩
    rw [Fault.span, Fault.span, Span.shift, Nat.add_comm, Nat.add_right_comm]

/-- The variable is a word that shifts, and the colon behind the atom does not belong to it: it is
at fault, in the same row. -/
theorem tokenize_atomDeclaration_colon :
    tokenize ": \x7b- left -\x7d\n" = .error (.unexpectedCharacter ':' ⟨0, 1, 1⟩) ∧
      tokenize (atomDeclaration "shl" "left" ++ ": \x7b- left -\x7d\n") =
        .error (.unexpectedCharacter ':' ⟨17, 1, 18⟩) := by
  have hstops : Stops isWord ": \x7b- left -\x7d\n".toList := stops_cons.2 (by decide)
  have hrest : tokenize ": \x7b- left -\x7d\n" = .error (.unexpectedCharacter ':' ⟨0, 1, 1⟩) := by
    decide +kernel
  obtain ⟨-, -, -, herror⟩ :=
    @tokenize_atomDeclaration "shl" "left" _ (by decide) (by decide) hstops
  obtain ⟨c, p, _, hfault, htokens, rfl, -⟩ := herror _ hrest
  obtain ⟨rfl, rfl⟩ := Fault.unexpectedCharacter.inj hfault
  exact ⟨hrest, htokens⟩

end Jawn
