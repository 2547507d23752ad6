import Jawn.Proofs.Cutting
import Jawn.Proofs.Standalone

/-!
# Values of declarations

A constant and a variable that can be changed are declared alike, up to a star. The value of a
variable is the rest of the line, while that of a constant must not start with an atom, not even
behind the sign of a deferred construct, and must not be a lone colon:

* `alone_iff`: a source is one construct if its scan finds one lexeme;
* `accepts_declaredValue`: which rests of a line are values of a constant;
* `not_alone_constant`: a constant leaves any other rest of a line behind, and its value is empty;
* `alone_constant_iff_mutableVar`: when the two declarations are read alike.
-/

namespace Jawn

open Pattern Lexical

/-! ## Sources of one construct -/

/-- A source is one construct if its scan finds one lexeme. -/
theorem alone_iff {tag : Tag} {operands : List String} {source : String} :
    Alone tag operands source ↔
      ∃ l, Lexeme.scan source.toList = ([l], []) ∧ l.tag = tag ∧ l.operands = operands := by
  constructor
  · rintro ⟨tokens, htokens, hvalues⟩
    obtain ⟨ls, hscan, rfl⟩ := tokenize_eq_ok_iff.1 htokens
    rw [Lexeme.map_value_stream] at hvalues
    have hvalues := List.append_cancel_right hvalues
    cases ls with
    | nil => cases hvalues
    | cons l ls =>
      rw [List.flatMap_cons, List.cons_append, List.cons.injEq, Token.tag.injEq] at hvalues
      obtain ⟨htag, hoperands⟩ := hvalues
      -- A second lexeme would have a tag among the operands.
      cases ls with
      | nil =>
        rw [List.flatMap_nil, List.append_nil] at hoperands
        exact ⟨l, hscan, htag, List.map_injective_iff.2 (fun _ _ => Token.operand.inj) hoperands⟩
      | cons m ls =>
        have hmem : Token.tag m.tag ∈ operands.map Token.operand := by
          rw [← hoperands]
          simp
        simp at hmem
  · rintro ⟨l, hscan, rfl, rfl⟩
    exact ⟨_, tokenize_eq_ok_iff.2 ⟨[l], hscan, rfl⟩, Lexeme.map_value_stream_singleton l⟩

/-- A source is one construct in one way only. -/
theorem Alone.unique {tag tag' : Tag} {operands operands' : List String} {source : String}
    (h : Alone tag operands source) (h' : Alone tag' operands' source) :
    tag = tag' ∧ operands = operands' := by
  obtain ⟨l, hscan, rfl, rfl⟩ := alone_iff.1 h
  obtain ⟨m, hscan', rfl, rfl⟩ := alone_iff.1 h'
  rw [hscan] at hscan'
  cases hscan'
  exact ⟨rfl, rfl⟩

/-- A construct that stands alone is read by the rule that has its tag. -/
theorem Alone.exists_read {tag : Tag} {operands : List String} {source : String}
    (h : Alone tag operands source) :
    ∃ rule ∈ Grammar.rules, ∃ deferred segments, rule.tag deferred = tag ∧
      Form.Covers rule.form source.toList segments := by
  obtain ⟨l, hscan, htag, -⟩ := alone_iff.1 h
  obtain ⟨hnext, -⟩ := Lexeme.exists_of_scan_cons hscan
  obtain ⟨hrule, hread, -⟩ := Lexeme.read_of_next? hnext
  have htext := (Lexeme.scan_eq source.toList).1
  rw [hscan, List.append_nil, List.flatMap_cons, List.flatMap_nil, List.append_nil] at htext
  exact ⟨l.rule, hrule, l.isDeferred, l.segments, htag, hread, htext.symm⟩

/-- Rules are told apart by their names. -/
theorem Grammar.named_of_mem {rule : Rule} (h : rule ∈ rules) : named rule.name = some rule := by
  have hnodup : (rules.map Rule.name).Nodup := by decide
  obtain ⟨before, after, heq⟩ := List.append_of_mem h
  rw [named, List.find?_eq_some_iff_append]
  refine ⟨by simp, before, after, heq, fun other hother => ?_⟩
  rw [heq, List.map_append, List.map_cons, List.nodup_append] at hnodup
  have hne := hnodup.2.2 _ (List.mem_map_of_mem hother) _ List.mem_cons_self
  simpa using hne

/-! ## The rest of a line as the value of a constant -/

/-- The value starts with an atom: a colon and a small letter. -/
def LeadsWithAtom (value : String) : Prop :=
  ∃ c rest, value.toList = ':' :: c :: rest ∧ c.isLower = true

/-- The value starts with the sign of a deferred construct. -/
def isMarked (value : String) : Bool :=
  value.toList.head? == some '#'

/-- The value without the sign of a deferred construct at its front. -/
def unmarked (value : String) : String :=
  if isMarked value then String.ofList value.toList.tail else value

theorem mark_append_unmarked (value : String) :
    mark (isMarked value) ++ unmarked value = value := by
  rw [unmarked]
  cases h : isMarked value with
  | false => simp [mark]
  | true =>
    obtain ⟨rest, hvalue⟩ := List.head?_eq_some_iff.1 (beq_iff_eq.1 h)
    rw [← String.toList_inj]
    simp [mark, hvalue]

theorem head?_unmarked {value : String} (h : isMarked value = false) :
    (unmarked value).toList.head? ≠ some '#' := by
  rw [unmarked, h]
  simpa [isMarked] using h

theorem accepts_unmarked {value : String} (h : restOfLine.Accepts value) :
    restOfLine.Accepts (unmarked value) := by
  rw [unmarked]
  split
  · have hline := matches_many.1 h
    refine matches_many.2 fun c hc => hline c ?_
    rw [String.toList_ofList] at hc
    exact List.mem_of_mem_tail hc
  · exact h

/-- The values of a constant are the rests of a line, without the lone colon and without those that
start with an atom. -/
theorem accepts_declaredValue {value : String} :
    declaredValue.Accepts value ↔
      restOfLine.Accepts value ∧ value ≠ ":" ∧ ¬ LeadsWithAtom value := by
  rw [ne_eq, ← String.toList_inj, LeadsWithAtom, Accepts, Accepts]
  generalize value.toList = u
  have hcolon : isLineEnd ':' = false := rfl
  rw [declaredValue, restOfLine, matches_optional, matches_alt, matches_leading, matches_seq,
    matches_many]
  rcases u with _ | ⟨c, _ | ⟨d, rest⟩⟩
  · simp
  · by_cases hc : c = ':'
    · simp [hc, matches_text, matches_leading]
    · simp [hc, matches_text, matches_leading]
  · by_cases hc : c = ':'
    · simp [hc, hcolon, matches_text, matches_leading, and_assoc, and_comm, and_left_comm]
    · simp [hc, matches_text, matches_leading, and_assoc]

/-- At another rest of a line, no value of a constant is read. -/
theorem prefers_nil_declaredValue {value : String} (h : value = ":" ∨ LeadsWithAtom value) :
    declaredValue.Prefers [] value.toList := by
  refine prefers_none ?_
  rcases h with rfl | ⟨c, rest, hvalue, hc⟩
  · rfl
  · simp [hvalue, ends, hc]

theorem Grammar.name_of_constant {rule : Rule} {deferred deferred' : Bool} (h : rule ∈ rules)
    (htag : rule.tag deferred = .constant deferred') : rule.name = "var" := by
  revert deferred deferred'
  revert rule
  decide

/-- A constant leaves a lone colon and an atom behind, also behind the sign of a deferred
construct: the marker takes the sign, and it is not read again without it. -/
theorem Form.read_constant {x value : String} (deferred : Bool) (hx : identifier.Accepts x)
    (hvalue : value = ":" ∨ LeadsWithAtom value) :
    Form.read [Grammar.word "jawn ", Grammar.operand identifier, Grammar.word " := ",
        Grammar.marker, Grammar.operand declaredValue]
      ("jawn ".toList ++ (x.toList ++ (" := ".toList ++ ((mark deferred).toList ++
        ([] ++ value.toList))))) =
      some [⟨.fixed, "jawn ".toList⟩, ⟨.operand, x.toList⟩, ⟨.fixed, " := ".toList⟩,
        ⟨.marker, (mark deferred).toList⟩, ⟨.operand, []⟩] := by
  have hmarker : Grammar.marker.pattern.Prefers (mark deferred).toList value.toList := by
    cases deferred with
    | false =>
      refine prefers_none (ends_text_eq_nil (stops_beq_iff.2 ?_))
      rcases hvalue with rfl | ⟨c, rest, hvalue, -⟩
      · decide
      · simp [hvalue]
    | true => exact prefers_altLeft prefers_text
  have hvar : identifier.Prefers x.toList
      (" := ".toList ++ ((mark deferred).toList ++ ([] ++ value.toList))) :=
    prefers_identifier hx (stops_word (by decide))
  exact read_cons_of_prefers prefers_text (read_cons_of_prefers hvar
    (read_cons_of_prefers prefers_text (read_cons_of_prefers hmarker
      (read_cons_of_prefers (prefers_nil_declaredValue hvalue) rfl))))

/-- The declaration of a constant with such a value is not one construct. -/
theorem not_alone_constant {x value : String} {deferred deferred' : Bool} {operands : List String}
    (hx : identifier.Accepts x) (hvalue : value = ":" ∨ LeadsWithAtom value) :
    ¬ Alone (.constant deferred') operands ("jawn " ++ x ++ " := " ++ mark deferred ++ value) := by
  intro h
  obtain ⟨rule, hrule, isDeferred, segments, htag, hread, htext⟩ := h.exists_read
  have hnamed := Grammar.named_of_mem hrule
  rw [Grammar.name_of_constant hrule htag] at hnamed
  obtain rfl := Option.some.inj (hnamed.symm.trans rfl)
  -- The segments make up the source only if the value is empty.
  have hshort := Form.read_constant deferred hx hvalue
  simp only [String.toList_append, List.append_assoc, List.nil_append] at hread hshort
  obtain rfl := Option.some.inj (hread.symm.trans hshort)
  have hempty : value.toList = [] := by simpa using htext
  rcases hvalue with rfl | ⟨c, rest, hvalue, -⟩
  · cases hempty
  · rw [hempty] at hvalue
    cases hvalue

/-! ## The two declarations -/

/-- The declaration of a variable is one construct with any value, and that of a constant is one,
with the same operands and the same marker, unless the value behind the marker is a lone colon or
starts with an atom. -/
theorem alone_constant_iff_mutableVar {x value : String} (hx : identifier.Accepts x)
    (hvalue : restOfLine.Accepts value) :
    Alone (.mutableVar (isMarked value)) [x, unmarked value] ("jawn* " ++ x ++ " := " ++ value) ∧
      ∀ deferred operands, Alone (.constant deferred) operands ("jawn " ++ x ++ " := " ++ value) ↔
        Alone (.mutableVar deferred) operands ("jawn* " ++ x ++ " := " ++ value) ∧
          unmarked value ≠ ":" ∧ ¬ LeadsWithAtom (unmarked value) := by
  have hcut (front : String) : front ++ x ++ " := " ++ value =
      front ++ x ++ " := " ++ mark (isMarked value) ++ unmarked value := by
    conv_rhs => rw [String.append_assoc, mark_append_unmarked]
  have hvar : Alone (.mutableVar (isMarked value)) [x, unmarked value]
      ("jawn* " ++ x ++ " := " ++ value) := by
    rw [hcut]
    exact alone_mutableVar hx (accepts_unmarked hvalue) head?_unmarked
  have hconst (hdeclared : declaredValue.Accepts (unmarked value)) :
      Alone (.constant (isMarked value)) [x, unmarked value]
        ("jawn " ++ x ++ " := " ++ value) := by
    rw [hcut]
    exact alone_constant hx hdeclared head?_unmarked
  refine ⟨hvar, fun deferred operands => ⟨fun h => ?_, fun ⟨h, hcolon, hatom⟩ => ?_⟩⟩
  · have hgood : unmarked value ≠ ":" ∧ ¬ LeadsWithAtom (unmarked value) := by
      rw [ne_eq, ← not_or]
      intro hbad
      rw [hcut] at h
      exact not_alone_constant hx hbad h
    obtain ⟨htag, rfl⟩ :=
      h.unique (hconst (accepts_declaredValue.2 ⟨accepts_unmarked hvalue, hgood⟩))
    obtain rfl := Tag.constant.inj htag
    exact ⟨hvar, hgood⟩
  · obtain ⟨htag, rfl⟩ := h.unique hvar
    obtain rfl := Tag.mutableVar.inj htag
    exact hconst (accepts_declaredValue.2 ⟨accepts_unmarked hvalue, hcolon, hatom⟩)

/-- The sign of a deferred construct does not belong to the value. -/
theorem alone_constant_of_sign :
    Alone (.mutableVar true) ["x", "a"] "jawn* x := #a" ∧
      Alone (.constant true) ["x", "a"] "jawn x := #a" := by
  have h := @alone_constant_iff_mutableVar "x" "#a" (matches_iff_nil_mem_ends.2 (by decide))
    (matches_iff_nil_mem_ends.2 (by decide))
  refine ⟨h.1, (h.2 true ["x", "a"]).2 ⟨h.1, by decide, ?_⟩⟩
  rintro ⟨c, rest, hvalue, -⟩
  cases hvalue

/-- A lone colon is the value of a variable, and it is not that of a constant. -/
theorem constant_differs_from_mutableVar : ¬ ∀ x value : String, identifier.Accepts x →
    restOfLine.Accepts value → ¬ LeadsWithAtom value → ∀ deferred operands,
      Alone (.constant deferred) operands ("jawn " ++ x ++ " := " ++ value) ↔
        Alone (.mutableVar deferred) operands ("jawn* " ++ x ++ " := " ++ value) := by
  intro h
  have hx : identifier.Accepts "x" := matches_iff_nil_mem_ends.2 (by decide)
  have hcolon : restOfLine.Accepts ":" := matches_iff_nil_mem_ends.2 (by decide)
  have hatom : ¬ LeadsWithAtom ":" := by
    rintro ⟨c, rest, hvalue, -⟩
    cases hvalue
  have hvar : Alone (.mutableVar false) ["x", ":"] "jawn* x := :" :=
    @alone_mutableVar false "x" ":" hx hcolon (by decide)
  obtain ⟨tokens, htokens, -⟩ := (h "x" ":" hx hcolon hatom false ["x", ":"]).2 hvar
  have herror : tokenize "jawn x := :" = .error (.unexpectedCharacter ':' ⟨10, 1, 11⟩) := by
    decide +kernel
  cases herror.symm.trans htokens

end Jawn
