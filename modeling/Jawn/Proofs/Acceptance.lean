import Jawn.Proofs.Building
import Mathlib.Data.List.DropRight
import Mathlib.Tactic.CasesM

/-!
# Streams that can be read

Any list of tokens can be read as a stream, also one that no source has. It is accepted if and only
if it consists of phrases with all their operands and one end marker behind them:

* `Slots.exists_complete_iff`: operands fill the slots of a tag if and only if they are as many as
  the tag takes and the one from a closed set is in this set;
* `Slots.fields_of_complete`: the fields of the construct are the operands under their names;
* `Stream.build_eq_ok_iff`: the constructs of a stream are those of its phrases;
* `Stream.build_iff_wellFormed`: which streams are accepted, and what is made of them.
-/

namespace Jawn

/-! ## The operands of a tag -/

/-- The place of the operand that must be from a closed set, and this set. -/
def Tag.choice? : Tag → Option (Nat × List String)
  | quotedString => some (0, ["\"", "'", "`"])
  | magnitude | magnitudeBy => some (1, [">>", "<<"])
  | bitShift => some (1, ["shl", "shr"])
  | _ => none

/-- The names of the fields that are operands as they stand, in the order of the operands. -/
def Tag.fieldNames : Tag → List String
  | newline | space | closeCurly | closeParen | openCurly | openParen | openSquare | closeSquare
  | ifHead | elseHead | notEqual | maybe | comma => []
  | classHead | functionHead _ => ["name"]
  | returned | factorial | number | operator | comment => ["val"]
  | varName | twoOperators => ["var"]
  | className => ["class"]
  | memberName => ["member"]
  | atomName => ["atom"]
  | maybeWeighted => ["probability"]
  | subclassHead => ["name", "parent"]
  | instantiation | instanceTest => ["var", "class"]
  | methodCall _ => ["callee", "method"]
  | constant _ | mutableVar _ | divMod => ["var", "val"]
  | oneOperator => ["var", "operator"]
  | quotedString => ["delimiter", "val"]
  | atomConstant => ["var", "atom"]
  | slice => ["var", "start", "end"]
  | elementwise => ["var", "operator", "val"]
  | estimate => ["lhs", "rhs"]
  | estimateTo => ["lhs", "precision", "rhs"]
  | magnitude | bitShift => ["lhs", "direction", "rhs"]
  | magnitudeBy => ["lhs", "direction", "factor", "rhs"]

/-- A text without the white space at its ends. -/
def stripped (text : String) : String :=
  String.ofList ((text.toList.dropWhile isBlank).rdropWhile isBlank)

/-- The other fields: the mark of a deferred construct, and the values of a condition. -/
def Tag.otherFields : Tag → List String → List (String × Field)
  | functionHead deferred, _ | methodCall deferred, _ | constant deferred, _
  | mutableVar deferred, _ => [("deferred", .flag deferred)]
  | oneOperator, [_, _, values] => [("params", .texts (Condition.values values))]
  | twoOperators, [_, op, value, op', value'] =>
    [("first", .comparison ⟨op, stripped value⟩), ("second", .comparison ⟨op', stripped value'⟩)]
  | _, _ => []

/-- The fields of a construct with this tag and these operands. -/
def Tag.fields (tag : Tag) (operands : List String) : List (String × Field) :=
  (tag.fieldNames.zip operands).map (fun (name, text) => (name, .text text)) ++
    tag.otherFields operands

/-- Operands that a tag can stand before: as many as it takes, and the one from a closed set in this
set. -/
structure Tag.Takes (tag : Tag) (operands : List String) : Prop where
  length_eq : operands.length = tag.arity
  choice : ∀ place options, tag.choice? = some (place, options) →
    ∃ text ∈ options, operands[place]? = some text

theorem Quote.ofString?_eq_some_iff {text : String} {quote : Quote} :
    Quote.ofString? text = some quote ↔ text = quote.display := by
  constructor
  · intro h
    rw [ofString?] at h
    split at h <;> [skip; split at h <;> [skip; split at h <;> [skip; cases h]]]
    all_goals
      obtain rfl := Option.some.inj h
      assumption
  · rintro rfl
    cases quote <;> rfl

theorem Magnitude.ofString?_eq_some_iff {text : String} {sign : Magnitude} :
    Magnitude.ofString? text = some sign ↔ text = sign.display := by
  constructor
  · intro h
    rw [ofString?] at h
    split at h <;> [skip; split at h <;> [skip; cases h]]
    all_goals
      obtain rfl := Option.some.inj h
      assumption
  · rintro rfl
    cases sign <;> rfl

theorem Shift.ofString?_eq_some_iff {text : String} {direction : Shift} :
    Shift.ofString? text = some direction ↔ text = direction.display := by
  constructor
  · intro h
    rw [ofString?] at h
    split at h <;> [skip; split at h <;> [skip; cases h]]
    all_goals
      obtain rfl := Option.some.inj h
      assumption
  · rintro rfl
    cases direction <;> rfl

namespace Slots

variable {c : Construct} {tag : Tag} {texts : List String}

theorem complete_done {d : Construct} :
    (Slots.done d).complete texts = some c ↔ texts = [] ∧ d = c := by
  cases texts <;> simp [complete]

theorem complete_text {next : String → Slots} :
    (Slots.text next).complete texts = some c ↔
      ∃ t ts, texts = t :: ts ∧ (next t).complete ts = some c := by
  cases texts <;> simp [complete]

theorem complete_quote {next : Quote → Slots} :
    (Slots.quote next).complete texts = some c ↔
      ∃ quote ts, texts = quote.display :: ts ∧ (next quote).complete ts = some c := by
  cases texts <;> simp [complete, Option.bind_eq_some_iff, Quote.ofString?_eq_some_iff]

theorem complete_magnitude {next : Magnitude → Slots} :
    (Slots.magnitude next).complete texts = some c ↔
      ∃ sign ts, texts = sign.display :: ts ∧ (next sign).complete ts = some c := by
  cases texts <;> simp [complete, Option.bind_eq_some_iff, Magnitude.ofString?_eq_some_iff]

theorem complete_shift {next : Shift → Slots} :
    (Slots.shift next).complete texts = some c ↔
      ∃ direction ts, texts = direction.display :: ts ∧ (next direction).complete ts = some c := by
  cases texts <;> simp [complete, Option.bind_eq_some_iff, Shift.ofString?_eq_some_iff]

/-- The construct has the tag that its operands stand behind, and their texts as its fields. Only
the order can differ: a precision is read before the right-hand side and listed behind it. -/
theorem fields_of_complete (h : tag.slots.complete texts = some c) :
    c.tag = tag ∧ c.fields.Perm (tag.fields texts) := by
  cases tag with
  | estimateTo =>
    simp only [Tag.slots, complete_text, complete_done] at h
    obtain ⟨lhs, _, rfl, precision, _, rfl, rhs, _, rfl, rfl, rfl⟩ := h
    exact ⟨rfl, (List.Perm.swap ..).cons _⟩
  | _ =>
    simp only [Tag.slots, complete_text, complete_quote, complete_magnitude, complete_shift,
      complete_done] at h
    cases_type* Exists And
    subst_vars
    exact ⟨rfl, .refl _⟩

theorem takes_of_complete (h : tag.slots.complete texts = some c) : tag.Takes texts := by
  cases tag with
  | quotedString =>
    simp only [Tag.slots, complete_text, complete_quote, complete_done] at h
    obtain ⟨quote, _, rfl, value, _, rfl, rfl, -⟩ := h
    refine ⟨rfl, ?_⟩
    rintro _ _ ⟨⟩
    exact ⟨quote.display, by cases quote <;> decide, rfl⟩
  | magnitude | magnitudeBy =>
    simp only [Tag.slots, complete_text, complete_magnitude, complete_done] at h
    obtain ⟨lhs, _, rfl, sign, _, rfl, h⟩ := h
    cases_type* Exists And
    subst_vars
    refine ⟨rfl, ?_⟩
    rintro _ _ ⟨⟩
    exact ⟨sign.display, by cases sign <;> decide, rfl⟩
  | bitShift =>
    simp only [Tag.slots, complete_text, complete_shift, complete_done] at h
    obtain ⟨lhs, _, rfl, direction, _, rfl, rhs, _, rfl, rfl, -⟩ := h
    refine ⟨rfl, ?_⟩
    rintro _ _ ⟨⟩
    exact ⟨direction.display, by cases direction <;> decide, rfl⟩
  | _ =>
    simp only [Tag.slots, complete_text, complete_done] at h
    cases_type* Exists And
    subst_vars
    refine ⟨rfl, ?_⟩
    rintro _ _ ⟨⟩

theorem exists_complete (h : tag.Takes texts) : ∃ c, tag.slots.complete texts = some c := by
  obtain ⟨hlength, hchoice⟩ := h
  cases tag with
  | quotedString =>
    obtain ⟨delimiter, value, rfl⟩ := List.length_eq_two.1 hlength
    obtain ⟨text, htext, ⟨⟩⟩ := hchoice _ _ rfl
    simp only [List.mem_cons, List.not_mem_nil, or_false] at htext
    rcases htext with rfl | rfl | rfl <;> exact ⟨_, rfl⟩
  | magnitude =>
    obtain ⟨lhs, sign, rhs, rfl⟩ := List.length_eq_three.1 hlength
    obtain ⟨text, htext, ⟨⟩⟩ := hchoice _ _ rfl
    simp only [List.mem_cons, List.not_mem_nil, or_false] at htext
    rcases htext with rfl | rfl <;> exact ⟨_, rfl⟩
  | bitShift =>
    obtain ⟨lhs, direction, rhs, rfl⟩ := List.length_eq_three.1 hlength
    obtain ⟨text, htext, ⟨⟩⟩ := hchoice _ _ rfl
    simp only [List.mem_cons, List.not_mem_nil, or_false] at htext
    rcases htext with rfl | rfl <;> exact ⟨_, rfl⟩
  | magnitudeBy =>
    obtain ⟨lhs, rest, rfl, hrest⟩ := List.length_eq_succ_iff.1 hlength
    obtain ⟨sign, factor, rhs, rfl⟩ := List.length_eq_three.1 hrest
    obtain ⟨text, htext, ⟨⟩⟩ := hchoice _ _ rfl
    simp only [List.mem_cons, List.not_mem_nil, or_false] at htext
    rcases htext with rfl | rfl <;> exact ⟨_, rfl⟩
  | newline | space | closeCurly | closeParen | openCurly | openParen | openSquare | closeSquare
  | ifHead | elseHead | notEqual | maybe | comma =>
    obtain rfl := List.length_eq_zero_iff.1 hlength
    exact ⟨_, rfl⟩
  | _ =>
    simp only [Tag.arity, List.length_eq_succ_iff, List.length_eq_zero_iff] at hlength
    cases_type* Exists And
    subst_vars
    exact ⟨_, rfl⟩

/-- Operands fill the slots of a tag if and only if the tag takes them. -/
theorem exists_complete_iff : (∃ c, tag.slots.complete texts = some c) ↔ tag.Takes texts :=
  ⟨fun ⟨_, h⟩ => takes_of_complete h, exists_complete⟩

end Slots

/-! ## Phrases of a stream -/

namespace Stream

theorem start_widen (span : Span) (operands : List (Located String)) :
    (widen span operands).start = (operands.map (·.span.start)).foldl min span.start := by
  induction operands generalizing span with
  | nil => rfl
  | cons operand operands ih => exact ih _

theorem stop_widen (span : Span) (operands : List (Located String)) :
    (widen span operands).stop = (operands.map (·.span.stop)).foldl max span.stop := by
  induction operands generalizing span with
  | nil => rfl
  | cons operand operands ih => exact ih _

/-- What is taken from a stream to fill slots are operands that complete them. -/
theorem complete_of_fill {slots : Slots} {span : Span} {tokens rest : Stream}
    {c : Located Construct} (h : fill slots span tokens = .ok (c, rest)) :
    ∃ operands : List (Located String), tokens = operands.map Phrase.operandToken ++ rest ∧
      slots.complete (operands.map Located.value) = some c.value ∧
      c.span = widen span operands := by
  fun_induction fill slots span tokens with
  | case1 d span tokens =>
    obtain ⟨rfl, rfl⟩ := Prod.mk.inj (Except.ok.inj h)
    exact ⟨[], rfl, rfl, rfl⟩
  | case2 next span text s tokens ih =>
    obtain ⟨operands, rfl, hcomplete, hspan⟩ := ih h
    exact ⟨⟨text, s⟩ :: operands, rfl, hcomplete, hspan⟩
  | case4 next span text s tokens quote hquote ih =>
    obtain ⟨operands, rfl, hcomplete, hspan⟩ := ih h
    exact ⟨⟨text, s⟩ :: operands, rfl, by simp [Slots.complete, hquote, hcomplete], hspan⟩
  | case7 next span text s tokens sign hsign ih =>
    obtain ⟨operands, rfl, hcomplete, hspan⟩ := ih h
    exact ⟨⟨text, s⟩ :: operands, rfl, by simp [Slots.complete, hsign, hcomplete], hspan⟩
  | case10 next span text s tokens direction hdirection ih =>
    obtain ⟨operands, rfl, hcomplete, hspan⟩ := ih h
    exact ⟨⟨text, s⟩ :: operands, rfl, by simp [Slots.complete, hdirection, hcomplete], hspan⟩
  | _ => cases h

end Stream

/-- A construct is what the operands of a phrase complete, and its span is widened over them. -/
def Phrase.ReadAs (phrase : Phrase) (c : Located Construct) : Prop :=
  phrase.construct? = some c.value ∧ c.span = Stream.widen phrase.tag.span phrase.operands

namespace Stream

/-- A phrase at the front of a stream is read as one construct. -/
theorem constructs_append {phrase : Phrase} {c : Located Construct} (h : phrase.ReadAs c)
    (rest : Stream) : constructs (phrase.tokens ++ rest) = (constructs rest).map (c :: ·) := by
  have hfill := fill_of_complete h.1 phrase.tag.span rest
  rw [← h.2] at hfill
  rw [Phrase.tokens, List.cons_append, constructs]
  split
  · rename_i hfill'
    rw [hfill] at hfill'
    cases hfill'
  · rename_i hfill'
    rw [hfill] at hfill'
    obtain ⟨rfl, rfl⟩ := Prod.mk.inj (Except.ok.inj hfill')
    rfl

/-- What is read of a stream are the constructs of phrases, up to the end marker at its end. -/
theorem phrases_of_constructs {tokens : Stream} {program : List (Located Construct)}
    (h : constructs tokens = .ok program) :
    ∃ (phrases : List Phrase) (span : Span),
      tokens = phrases.flatMap Phrase.tokens ++ [⟨.eof, span⟩] ∧
        List.Forall₂ Phrase.ReadAs phrases program := by
  fun_induction constructs tokens generalizing program with
  | case3 span rest hrest =>
    obtain rfl := List.isEmpty_iff.1 hrest
    obtain rfl := Except.ok.inj h
    exact ⟨[], span, rfl, .nil⟩
  | case6 tag span rest c rest' hfill ih =>
    cases hrest : constructs rest' with
    | error stop => simp [hrest, Except.map] at h
    | ok program' =>
      rw [hrest] at h
      obtain rfl := Except.ok.inj h
      obtain ⟨operands, rfl, hcomplete, hspan⟩ := complete_of_fill hfill
      obtain ⟨phrases, stop, rfl, hphrases⟩ := ih hrest
      refine ⟨⟨⟨tag, span⟩, operands⟩ :: phrases, stop, ?_, .cons ⟨hcomplete, hspan⟩ hphrases⟩
      simp [Phrase.tokens]
  | _ => cases h

theorem constructs_of_phrases {phrases : List Phrase} {program : List (Located Construct)}
    (h : List.Forall₂ Phrase.ReadAs phrases program) (span : Span) :
    constructs (phrases.flatMap Phrase.tokens ++ [⟨.eof, span⟩]) = .ok program := by
  induction h with
  | nil => simp [constructs]
  | cons hphrase _ ih =>
    rw [List.flatMap_cons, List.append_assoc, constructs_append hphrase, ih]
    rfl

theorem build_eq_ok_iff {tokens : Stream} {program : List (Located Construct)} :
    tokens.build = .ok program ↔ ∃ (phrases : List Phrase) (span : Span),
      tokens = phrases.flatMap Phrase.tokens ++ [⟨.eof, span⟩] ∧
        List.Forall₂ Phrase.ReadAs phrases program := by
  have hbuild : tokens.build = .ok program ↔ constructs tokens = .ok program := by
    rw [build]
    cases constructs tokens <;> simp [Except.mapError]
  rw [hbuild]
  refine ⟨phrases_of_constructs, ?_⟩
  rintro ⟨phrases, span, rfl, h⟩
  exact constructs_of_phrases h span

end Stream

namespace Phrase

/-- The construct that is read from a phrase has the tag of the phrase, the operands as its fields
and the span of all tokens together. -/
structure Makes (phrase : Phrase) (c : Located Construct) : Prop where
  tag_eq : c.value.tag = phrase.tag.value
  fields_perm : c.value.fields.Perm (phrase.tag.value.fields phrase.texts)
  start_eq : (phrase.tokens.map (·.span.start)).min? = some c.span.start
  stop_eq : (phrase.tokens.map (·.span.stop)).max? = some c.span.stop

theorem ReadAs.makes {phrase : Phrase} {c : Located Construct} (h : phrase.ReadAs c) :
    phrase.Makes c := by
  obtain ⟨hcomplete, hspan⟩ := h
  obtain ⟨htag, hfields⟩ := Slots.fields_of_complete hcomplete
  refine ⟨htag, hfields, ?_, ?_⟩
  · rw [hspan, Stream.start_widen, tokens, List.map_cons, List.min?_cons', List.map_map]
    rfl
  · rw [hspan, Stream.stop_widen, tokens, List.map_cons, List.max?_cons', List.map_map]
    rfl

theorem exists_readAs {phrases : List Phrase}
    (h : ∀ phrase ∈ phrases, phrase.tag.value.Takes phrase.texts) :
    ∃ program, List.Forall₂ ReadAs phrases program := by
  induction phrases with
  | nil => exact ⟨[], .nil⟩
  | cons phrase phrases ih =>
    rw [List.forall_mem_cons] at h
    obtain ⟨c, hc⟩ := Slots.exists_complete_iff.2 h.1
    obtain ⟨program, hprogram⟩ := ih h.2
    exact ⟨⟨c, _⟩ :: program, .cons ⟨hc, rfl⟩ hprogram⟩

end Phrase

namespace Stream

/-- A stream is well formed if it consists of tags, each with operands that it takes, and one end
marker behind them. -/
def WellFormed (tokens : Stream) : Prop :=
  ∃ (phrases : List Phrase) (span : Span),
    tokens = phrases.flatMap Phrase.tokens ++ [⟨.eof, span⟩] ∧
      ∀ phrase ∈ phrases, phrase.tag.value.Takes phrase.texts

/-- The builder accepts exactly the well-formed streams, and makes of each phrase the construct with
its tag, its operands and its span. -/
theorem build_iff_wellFormed (tokens : Stream) :
    ((∃ program, tokens.build = .ok program) ↔ tokens.WellFormed) ∧
    ∀ program, tokens.build = .ok program → List.Forall₂ Phrase.Makes tokens.phrases program := by
  refine ⟨⟨?accepted, ?wellFormed⟩, ?made⟩
  case accepted =>
    rintro ⟨program, h⟩
    obtain ⟨phrases, span, htokens, hphrases⟩ := build_eq_ok_iff.1 h
    refine ⟨phrases, span, htokens, ?_⟩
    have htakes := hphrases.imp fun phrase c hc =>
      And.intro (Slots.exists_complete_iff.1 ⟨c.value, hc.1⟩) hc
    exact ((List.forall₂_and_left ..).1 htakes).1
  case wellFormed =>
    rintro ⟨phrases, span, htokens, htakes⟩
    obtain ⟨program, hprogram⟩ := Phrase.exists_readAs htakes
    exact ⟨program, build_eq_ok_iff.2 ⟨phrases, span, htokens, hprogram⟩⟩
  case made =>
    intro program h
    obtain ⟨phrases, span, htokens, hphrases⟩ := build_eq_ok_iff.1 h
    rw [htokens, phrases_flatMap]
    exact hphrases.imp fun phrase c hc => hc.makes

/-- A condition with two operators, whose values have white space at their ends. -/
theorem build_iff_wellFormed_twoOperators :
    ∃ c, build [⟨.tag .twoOperators, ⟨0, 18⟩⟩, ⟨.operand "x", ⟨0, 1⟩⟩, ⟨.operand ">", ⟨2, 3⟩⟩,
        ⟨.operand " 1\t", ⟨4, 7⟩⟩, ⟨.operand "<", ⟨9, 10⟩⟩, ⟨.operand "9 ", ⟨11, 13⟩⟩,
        ⟨.eof, ⟨18, 18⟩⟩] = .ok [c] ∧
      c.value.tag = .twoOperators ∧
      c.value.fields.Perm [("var", .text "x"), ("first", .comparison ⟨">", "1"⟩),
        ("second", .comparison ⟨"<", "9"⟩)] ∧
      c.span.start = 0 ∧ c.span.stop = 18 := by
  obtain ⟨hiff, hmade⟩ := build_iff_wellFormed [⟨.tag .twoOperators, ⟨0, 18⟩⟩,
    ⟨.operand "x", ⟨0, 1⟩⟩, ⟨.operand ">", ⟨2, 3⟩⟩, ⟨.operand " 1\t", ⟨4, 7⟩⟩,
    ⟨.operand "<", ⟨9, 10⟩⟩, ⟨.operand "9 ", ⟨11, 13⟩⟩, ⟨.eof, ⟨18, 18⟩⟩]
  obtain ⟨program, hbuild⟩ := hiff.2 ⟨[⟨⟨.twoOperators, ⟨0, 18⟩⟩, [⟨"x", ⟨0, 1⟩⟩, ⟨">", ⟨2, 3⟩⟩,
    ⟨" 1\t", ⟨4, 7⟩⟩, ⟨"<", ⟨9, 10⟩⟩, ⟨"9 ", ⟨11, 13⟩⟩]⟩], ⟨18, 18⟩, rfl, by
      rw [List.forall_mem_singleton]
      exact ⟨rfl, by rintro _ _ ⟨⟩⟩⟩
  have hfields : Tag.twoOperators.fields ["x", ">", " 1\t", "<", "9 "] =
      [("var", .text "x"), ("first", .comparison ⟨">", "1"⟩),
        ("second", .comparison ⟨"<", "9"⟩)] := by decide +kernel
  obtain ⟨c, _, hc, hnil, rfl⟩ := List.forall₂_cons_left_iff.1 (hmade program hbuild)
  obtain rfl := List.forall₂_nil_left_iff.1 hnil
  exact ⟨c, hbuild, hc.tag_eq, hfields ▸ hc.fields_perm, Option.some.inj hc.start_eq.symm,
    Option.some.inj hc.stop_eq.symm⟩

end Stream

end Jawn
