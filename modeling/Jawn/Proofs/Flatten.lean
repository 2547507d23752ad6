import Jawn.Proofs.Acceptance
import Jawn.Proofs.Lexical

/-!
# Constructs as tokens and back

A construct can be flattened into its tag and its operands. This loses nothing, so the tokens of a
program are read as the same program again. Only the values of a condition need care: they lose the
white space at their ends when they are read, and those of one operator share an operand.

* `trim_eq_self`: what has no white space at its ends is not changed;
* `Condition.pieces_intercalate`, `Condition.values_intercalate`: joined values are told apart again;
* `Construct.complete_operands`: a construct is what its own operands make behind its tag;
* `parseStream_flatten`: the tokens of a program are read as the program.
-/

namespace Jawn

open Lexical Pattern

/-! ## Values of a condition -/

/-- No white space stands at the ends of a text. -/
def Trimmed (t : List Char) : Prop :=
  Stops isBlank t ∧ Stops isBlank t.reverse

instance (ok : Char → Bool) (r : List Char) : Decidable (Stops ok r) :=
  decidable_of_iff (r.head?.all (fun c => !ok c) = true) (by cases r <;> simp)

instance (t : List Char) : Decidable (Trimmed t) :=
  inferInstanceAs (Decidable (Stops isBlank t ∧ Stops isBlank t.reverse))

theorem dropWhile_of_stops {ok : Char → Bool} {t : List Char} (h : Stops ok t) :
    t.dropWhile ok = t := by
  cases t with
  | nil => rfl
  | cons c t => simp [stops_cons.1 h]

theorem trim_eq_self {t : List Char} (h : Trimmed t) : trim t = t := by
  rw [trim, dropWhile_of_stops h.1, dropWhile_of_stops h.2, List.reverse_reverse]

/-- A blank in front of a text is trimmed away. -/
theorem trim_cons {c : Char} (hc : isBlank c = true) (t : List Char) : trim (c :: t) = trim t := by
  rw [trim, List.dropWhile_cons_of_pos hc, trim]

namespace Condition

/-- Values without a comma between them are one value. -/
theorem matches_append {u v : List Char} (hu : conditionValue.Matches u)
    (hv : conditionValue.Matches v) : conditionValue.Matches (u ++ v) := by
  obtain ⟨item, items, hitem, hitems, rfl⟩ := matches_seq.1 hu
  obtain ⟨item', items', hitem', hitems', rfl⟩ := matches_seq.1 hv
  rw [List.append_assoc]
  exact .seq hitem (hitems.star_append (.starCons hitem' hitems'))

/-- The text of a value is a piece of its own if the value cannot go on. -/
theorem pieces_append {v r : List Char} (h : conditionValue.Matches v)
    (hr : Stops continuesCondition r) : pieces (v ++ r) = v :: pieces r := by
  have hprefers := prefers_conditionValue h hr
  obtain ⟨left, hleft⟩ := List.head?_eq_some_iff.1 hprefers
  cases v with
  | nil => exact absurd h (by decide)
  | cons c v =>
    rw [List.cons_append] at hleft ⊢
    have hpiece : (c :: (v ++ r)).take ((c :: (v ++ r)).length - r.length) = c :: v := by
      have hlength : (c :: (v ++ r)).length - r.length = v.length + 1 := by
        rw [List.length_cons, List.length_append]
        omega
      rw [hlength, List.take_succ_cons, List.take_left]
    rw [pieces, hleft]
    dsimp only
    rw [hpiece, List.length_cons, Nat.add_sub_cancel, List.drop_left]

theorem pieces_comma (r : List Char) : pieces (',' :: r) = pieces r := by
  have hends : conditionValue.ends (',' :: r) = [] :=
    ends_seq_eq_nil (ends_conditionItem (stops_cons.2 rfl))
  rw [pieces, hends]

/-- The pieces of values with commas between them are the values. -/
theorem pieces_intercalate {v : List Char} {vs : List (List Char)}
    (h : ∀ w ∈ v :: vs, conditionValue.Matches w) :
    pieces ([','].intercalate (v :: vs)) = v :: vs := by
  induction vs generalizing v with
  | nil =>
    have hpieces := pieces_append (h v (by simp)) stops_nil
    rw [pieces, List.append_nil] at hpieces
    rw [List.intercalate_singleton, hpieces]
  | cons w vs ih =>
    rw [List.forall_mem_cons] at h
    rw [List.intercalate_cons_cons, List.append_assoc, List.singleton_append,
      pieces_append h.1 (stops_cons.2 rfl), pieces_comma, ih h.2]

/-- A blank behind a comma goes to the value behind it. -/
theorem intercalate_blank (v : List Char) (vs : List (List Char)) :
    [',', ' '].intercalate (v :: vs) = [','].intercalate (v :: vs.map (' ' :: ·)) := by
  induction vs generalizing v with
  | nil => rfl
  | cons w vs ih =>
    have hblank : [',', ' '].intercalate ((' ' :: w) :: vs) =
        ' ' :: [',', ' '].intercalate (w :: vs) := by
      cases vs <;> simp [List.intercalate_cons_cons]
    rw [List.map_cons, List.intercalate_cons_cons, List.intercalate_cons_cons, ← ih, hblank]
    simp

/-- Values joined by commas are told apart again. -/
theorem values_intercalate {vs : List String}
    (h : ∀ v ∈ vs, conditionValue.Accepts v ∧ Trimmed v.toList) :
    values (", ".intercalate vs) = vs := by
  cases vs with
  | nil => simp [values, pieces]
  | cons v vs =>
    have hmatches : ∀ w ∈ v.toList :: vs.map String.toList, conditionValue.Matches w := by
      rw [← List.map_cons, List.forall_mem_map]
      exact fun w hw => (h w hw).1
    have htrimmed : (v.toList :: (vs.map String.toList).map (' ' :: ·)).map trim =
        (v :: vs).map String.toList := by
      rw [List.forall_mem_cons] at h
      rw [List.map_cons, trim_eq_self h.1.2, List.map_cons, List.map_map, List.map_map]
      congr 1
      refine List.map_congr_left fun w hw => ?_
      exact (trim_cons rfl _).trans (trim_eq_self (h.2 w hw).2)
    have hpieces : pieces ([',', ' '].intercalate (v.toList :: vs.map String.toList)) =
        v.toList :: (vs.map String.toList).map (' ' :: ·) := by
      rw [List.forall_mem_cons] at hmatches
      rw [intercalate_blank]
      refine pieces_intercalate (List.forall_mem_cons.2 ⟨hmatches.1, ?_⟩)
      rw [List.forall_mem_map]
      exact fun w hw => matches_append (u := [' ']) (by decide) (hmatches.2 w hw)
    have hfilter : ((v :: vs).map String.toList).filter (fun value => !value.isEmpty) =
        (v :: vs).map String.toList := by
      rw [List.filter_eq_self, List.map_cons]
      intro w hw
      cases w with
      | nil => exact absurd (hmatches _ hw) (by decide)
      | cons => rfl
    have hjoin : ", ".toList = [',', ' '] := rfl
    rw [values, String.toList_intercalate, hjoin, List.map_cons, hpieces, htrimmed,
      hfilter, List.map_map]
    simp

theorem value_of_trimmed {v : String} (h : Trimmed v.toList) : value v = v := by
  rw [value, trim_eq_self h, String.ofList_toList]

end Condition

/-! ## Flat constructs -/

namespace Construct

/-- The operands of a construct in the order of its form. -/
def operands : Construct → List String
  | newline | space | closeCurly | closeParen | openCurly | openParen | openSquare | closeSquare
  | ifHead | elseHead | notEqual | maybe | comma => []
  | classHead name | functionHead name _ | varName name | className name | memberName name
  | atomName name => [name]
  | returned value | factorial value | maybeWeighted value | number value | operator value
  | comment value => [value]
  | subclassHead name parent => [name, parent]
  | instantiation var cls | instanceTest var cls => [var, cls]
  | methodCall callee method _ => [callee, method]
  | constant var value _ | mutableVar var value _ | divMod var value => [var, value]
  | oneOperator var op values => [var, op, ", ".intercalate values]
  | twoOperators var first second =>
    [var, first.operator, first.value, second.operator, second.value]
  | quotedString quote value => [quote.display, value]
  | atomConstant var atom => [var, atom]
  | slice var start stop => [var, start, stop]
  | elementwise var op value => [var, op, value]
  | estimate lhs rhs => [lhs, rhs]
  | estimateTo lhs precision rhs => [lhs, precision, rhs]
  | magnitude lhs sign rhs => [lhs, sign.display, rhs]
  | magnitudeBy lhs sign factor rhs => [lhs, sign.display, factor, rhs]
  | bitShift lhs direction rhs => [lhs, direction.display, rhs]

/-- The tag of a construct and its operands behind it. -/
def flatten (c : Construct) : List Token :=
  .tag c.tag :: c.operands.map .operand

/-- The values of a condition are such as they are read: without white space at their ends, and,
where they share an operand, each a value of its own, which is never empty. -/
def Settled : Construct → Prop
  | oneOperator _ _ values => ∀ v ∈ values, conditionValue.Accepts v ∧ Trimmed v.toList
  | twoOperators _ first second => Trimmed first.value.toList ∧ Trimmed second.value.toList
  | _ => True

/-- A construct is what its own operands make behind its tag. -/
theorem complete_operands {c : Construct} (h : c.Settled) :
    c.tag.slots.complete c.operands = some c := by
  cases c with
  | oneOperator var operator values =>
    have hvalues := Condition.values_intercalate h
    show some (oneOperator var operator (Condition.values _)) = _
    rw [hvalues]
  | twoOperators var first second =>
    show some (twoOperators var ⟨_, Condition.value _⟩ ⟨_, Condition.value _⟩) = _
    rw [Condition.value_of_trimmed h.1, Condition.value_of_trimmed h.2]
  | quotedString quote value => cases quote <;> rfl
  | magnitude lhs sign rhs => cases sign <;> rfl
  | magnitudeBy lhs sign factor rhs => cases sign <;> rfl
  | bitShift lhs direction rhs => cases direction <;> rfl
  | _ => rfl

end Construct

/-! ## Streams of flat constructs -/

theorem exists_operandTokens {tokens : Stream} {texts : List String}
    (h : tokens.map Located.value = texts.map .operand) :
    ∃ operands : List (Located String), tokens = operands.map Phrase.operandToken ∧
      operands.map Located.value = texts := by
  induction texts generalizing tokens with
  | nil => exact ⟨[], List.map_eq_nil_iff.1 h, rfl⟩
  | cons text texts ih =>
    obtain ⟨token, rest, rfl, htoken, hrest⟩ := List.map_eq_cons_iff.1 h
    obtain ⟨operands, rfl, rfl⟩ := ih hrest
    refine ⟨⟨text, token.span⟩ :: operands, ?_, rfl⟩
    rw [List.map_cons, Phrase.operandToken, ← htoken]

theorem Construct.exists_phrase {c : Construct} {tokens : Stream} (hc : c.Settled)
    (h : tokens.map Located.value = c.flatten) :
    ∃ phrase : Phrase, tokens = phrase.tokens ∧ phrase.construct? = some c := by
  obtain ⟨token, rest, rfl, htoken, hrest⟩ := List.map_eq_cons_iff.1 h
  obtain ⟨operands, rfl, hoperands⟩ := exists_operandTokens hrest
  refine ⟨⟨⟨c.tag, token.span⟩, operands⟩, ?_, ?_⟩
  · rw [Phrase.tokens, ← htoken]
  · rw [Phrase.construct?, Phrase.texts, hoperands]
    exact complete_operands hc

/-- Tokens of flat constructs, with any spans, are phrases that are read as these constructs. -/
theorem Program.exists_phrases {program : Program} {tokens : Stream}
    (hprogram : ∀ c ∈ program, c.Settled)
    (h : tokens.map Located.value = program.flatMap Construct.flatten) :
    ∃ (phrases : List Phrase) (constructs : List (Located Construct)),
      tokens = phrases.flatMap Phrase.tokens ∧ List.Forall₂ Phrase.ReadAs phrases constructs ∧
        programOf constructs = program := by
  induction program generalizing tokens with
  | nil => exact ⟨[], [], List.map_eq_nil_iff.1 h, .nil, rfl⟩
  | cons c program ih =>
    rw [List.forall_mem_cons] at hprogram
    rw [List.flatMap_cons] at h
    obtain ⟨front, rest, rfl, hfront, hrest⟩ := List.map_eq_append_iff.1 h
    obtain ⟨phrase, rfl, hphrase⟩ := c.exists_phrase hprogram.1 hfront
    obtain ⟨phrases, constructs, rfl, hread, rfl⟩ := ih hprogram.2 hrest
    exact ⟨phrase :: phrases, ⟨c, _⟩ :: constructs, rfl, .cons ⟨hphrase, rfl⟩ hread, rfl⟩

/-- The tokens of a program, with an end marker behind them, are read as the program, whatever their
spans are. -/
theorem parseStream_flatten {program : Program} {tokens : Stream}
    (hprogram : ∀ c ∈ program, c.Settled)
    (h : tokens.map Located.value = program.flatMap Construct.flatten ++ [.eof]) :
    ∃ constructs, parseStream false tokens = .ok constructs ∧ programOf constructs = program := by
  obtain ⟨front, last, rfl, hfront, hlast⟩ := List.map_eq_append_iff.1 h
  obtain ⟨marker, rfl, hmarker⟩ := List.map_eq_singleton_iff.1 hlast
  obtain ⟨phrases, constructs, rfl, hread, rfl⟩ := Program.exists_phrases hprogram hfront
  have hbuild : Stream.build (phrases.flatMap Phrase.tokens ++ [marker]) = .ok constructs :=
    Stream.build_eq_ok_iff.2 ⟨phrases, marker.span, by rw [← hmarker], hread⟩
  refine ⟨constructs, ?_, rfl⟩
  rw [parseStream, hbuild]
  rfl

/-- A comma inside a string does not part values, and the spans of the tokens do not matter. -/
theorem parseStream_flatten_strings :
    (Construct.oneOperator "x" "===" ["\"a, b\"", "c d"]).Settled ∧
    ∃ constructs, parseStream false [⟨.tag .oneOperator, ⟨9, 2⟩⟩, ⟨.operand "x", ⟨0, 0⟩⟩,
        ⟨.operand "===", ⟨5, 1⟩⟩, ⟨.operand "\"a, b\", c d", ⟨3, 4⟩⟩, ⟨.eof, ⟨0, 0⟩⟩] =
          .ok constructs ∧
      programOf constructs = [.oneOperator "x" "===" ["\"a, b\"", "c d"]] := by
  have hsettled : (Construct.oneOperator "x" "===" ["\"a, b\"", "c d"]).Settled := by
    show ∀ v ∈ ["\"a, b\"", "c d"], conditionValue.Accepts v ∧ Trimmed v.toList
    decide +kernel
  exact ⟨hsettled, parseStream_flatten (List.forall_mem_singleton.2 hsettled) (by decide +kernel)⟩

end Jawn
