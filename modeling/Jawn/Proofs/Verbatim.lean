import Jawn.Proofs.Lines
import Mathlib.Tactic.MkIffOfInductiveProp

/-!
# What passes through unchanged

Some constructs are written in JavaScript as they are in the source. Among the written forms of a
line end and of a space only one is kept, and a condition stays as it is if it has one value:

* `Written.render_eq`: the fragment of such a construct is its written form;
* `compile_of_verbatim`: a source of such constructs is its own output.
-/

namespace Jawn

/-- The constructs that are written in JavaScript as in the source, apart from line ends with a
carriage return, tabs, and conditions with more than one value. -/
def Tag.verbatim : List Tag :=
  [.newline, .space, .comment, .methodCall false, .returned, .ifHead, .elseHead, .oneOperator,
    .quotedString, .varName, .className, .memberName, .number, .operator, .comma, .openParen,
    .closeParen, .openCurly, .closeCurly, .openSquare, .closeSquare]

/-- A phrase that stands in a source as its construct is written in JavaScript. -/
@[mk_iff]
structure Phrase.Verbatim (source : String) (phrase : Phrase) : Prop where
  tag_mem : phrase.tag.value ∈ Tag.verbatim
  not_carriageReturn : phrase.tag.value = .newline → ¬ phrase.tag.span.Cuts source "\r\n"
  not_tab : phrase.tag.value = .space → ¬ phrase.tag.span.Cuts source "\t"
  /-- The last operand of a condition is its only value. -/
  only_value : phrase.tag.value = .oneOperator →
    ∀ values ∈ phrase.texts[2]?, Condition.values values = [values]

instance (source : String) (phrase : Phrase) : Decidable (phrase.Verbatim source) :=
  decidable_of_iff _ (Phrase.verbatim_iff source phrase).symm

theorem Written.render_eq {tag : Tag} {operands : List String} {text : String}
    (h : Written tag operands text) (htag : tag ∈ Tag.verbatim)
    (hreturn : tag = .newline → text ≠ "\r\n") (htab : tag = .space → text ≠ "\t")
    (honly : tag = .oneOperator → ∀ values ∈ operands[2]?, Condition.values values = [values]) :
    ∃ c, tag.slots.complete operands = some c ∧ c.render = text := by
  cases h with
  | carriageReturn => exact absurd rfl (hreturn rfl)
  | tab => exact absurd rfl (htab rfl)
  | methodCall deferred hcallee hmethod =>
    obtain rfl : deferred = false := by simpa [Tag.verbatim] using htag
    exact ⟨_, rfl, rfl⟩
  | @oneOperator var operator values hvar hoperator hvalues =>
    refine ⟨_, rfl, ?_⟩
    have hvalue : Condition.values values = [values] := honly rfl values rfl
    rw [hvalue]
    show " || ".intercalate [var ++ " " ++ operator ++ " " ++ values] ++ ") \x7b" = _
    rw [String.intercalate_singleton]
  | lineFeed | blank | comment | returned | ifHead | elseHead | doubleQuoted | singleQuoted
  | template | varName | className | memberName | number | operator | comma | openParen
  | closeParen | openCurly | closeCurly | openSquare | closeSquare => exact ⟨_, rfl, rfl⟩
  | _ => simp [Tag.verbatim] at htag

theorem Lexeme.PlacedIn.render_eq {source : String} {phrase : Phrase} {l : Lexeme}
    (h : PlacedIn source phrase l) (hverbatim : phrase.Verbatim source) :
    phrase.construct?.map Construct.render = some (String.ofList l.text) := by
  have hcuts := h.cuts
  obtain ⟨c, hc, hrender⟩ := h.written.render_eq hverbatim.tag_mem
    (fun htag htext => hverbatim.not_carriageReturn htag (htext ▸ hcuts))
    (fun htag htext => hverbatim.not_tab htag (htext ▸ hcuts)) hverbatim.only_value
  rw [Phrase.construct?, hc, Option.map_some, hrender]

/-- A source in which every phrase stands as JavaScript is written is its own output. -/
theorem compile_of_verbatim {source : String} {tokens : Stream} (h : tokenize source = .ok tokens)
    (hverbatim : ∀ phrase ∈ tokens.phrases, phrase.Verbatim source) :
    compile {} source = .ok source := by
  obtain ⟨lexemes, hsource, hplaced⟩ := exists_placedIn h
  obtain ⟨program, hprogram, -, hvalues⟩ := exists_build_of_tokenize h
  have hparse : parse false source = .ok program := by
    simp [parse, h, parseStream, hprogram]
  have hfragments : tokens.phrases.map (fun phrase => phrase.construct?.map Construct.render) =
      lexemes.map fun l => some (String.ofList l.text) := by
    rw [← List.forall₂_eq_eq_eq, List.forall₂_map_left_iff, List.forall₂_map_right_iff]
    exact ((List.forall₂_and_left ..).2 ⟨hverbatim, hplaced⟩).imp fun _ _ h => h.2.render_eq h.1
  have hrender : (programOf program).map Construct.render =
      lexemes.map (String.ofList ·.text) := by
    refine (List.map_inj_right fun _ _ => Option.some.inj).1 ?_
    calc ((programOf program).map Construct.render).map some
      _ = ((programOf program).map some).map (Option.map Construct.render) := by simp
      _ = tokens.phrases.map fun phrase => phrase.construct?.map Construct.render := by
        rw [hvalues, List.map_map]
        rfl
      _ = (lexemes.map (String.ofList ·.text)).map some := by
        rw [hfragments, List.map_map]
        rfl
  rw [compile_eq_ok_of_parse hparse, Program.render, hrender, ← hsource]

/-- Tabs may stand inside operands, and a comma inside a quoted value does not cut it. -/
theorem compile_of_verbatim_condition :
    tokenize "if (x == 'a,b') \x7b //\t\n" = .ok [⟨.tag .ifHead, ⟨0, 4⟩⟩,
      ⟨.tag .oneOperator, ⟨4, 17⟩⟩, ⟨.operand "x", ⟨4, 5⟩⟩, ⟨.operand "==", ⟨6, 8⟩⟩,
      ⟨.operand "'a,b'", ⟨9, 14⟩⟩, ⟨.tag .space, ⟨17, 18⟩⟩, ⟨.tag .comment, ⟨18, 21⟩⟩,
      ⟨.operand "//\t", ⟨18, 21⟩⟩, ⟨.tag .newline, ⟨21, 22⟩⟩, ⟨.eof, ⟨22, 22⟩⟩] ∧
    compile {} "if (x == 'a,b') \x7b //\t\n" = .ok "if (x == 'a,b') \x7b //\t\n" := by
  have h : tokenize "if (x == 'a,b') \x7b //\t\n" = .ok [⟨.tag .ifHead, ⟨0, 4⟩⟩,
      ⟨.tag .oneOperator, ⟨4, 17⟩⟩, ⟨.operand "x", ⟨4, 5⟩⟩, ⟨.operand "==", ⟨6, 8⟩⟩,
      ⟨.operand "'a,b'", ⟨9, 14⟩⟩, ⟨.tag .space, ⟨17, 18⟩⟩, ⟨.tag .comment, ⟨18, 21⟩⟩,
      ⟨.operand "//\t", ⟨18, 21⟩⟩, ⟨.tag .newline, ⟨21, 22⟩⟩, ⟨.eof, ⟨22, 22⟩⟩] := by
    decide +kernel
  exact ⟨h, compile_of_verbatim h (by decide +kernel)⟩

end Jawn
