import Jawn.Proofs.Lexical
import Jawn.Proofs.Phrase
import Jawn.Proofs.Rivals

/-!
# Constructs that stand alone

A written form that is the whole source is read back as its construct, unless a rival rule takes it:

* `Form.Covers`: a form is read as segments that make up the whole text, one part after the other;
* `alone_of_covers`: the source is then one construct, if it is no written form of a rival;
* `Tag.IsUnclaimed`: the condition on the operands under which no rival takes the written form;
* `tokenize_of_written`: the tokens of a written form that stands alone.
-/

namespace Jawn

open Pattern Lexical

/-! ## Reading a whole text -/

namespace Form

/-- The form is read as these segments, and nothing of the text is left. -/
structure Covers (form : Form) (s : List Char) (segments : List Segment) : Prop where
  read_eq : Form.read form s = some segments
  text_eq : segments.flatMap Segment.text = s

variable {form : Form} {r : List Char} {segments : List Segment}

theorem covers_nil : Covers [] [] [] :=
  ⟨rfl, rfl⟩

theorem Covers.cons {part : Part} {u : List Char} (h : Covers form r segments)
    (hpart : part.pattern.Prefers u r) :
    Covers (part :: form) (u ++ r) (⟨part.role, u⟩ :: segments) :=
  ⟨read_cons_of_prefers hpart h.read_eq, by rw [List.flatMap_cons, h.text_eq]⟩

theorem Covers.word {k : String} (h : Covers form r segments) :
    Covers (Grammar.word k :: form) (k.toList ++ r) (⟨.fixed, k.toList⟩ :: segments) :=
  h.cons prefers_text

theorem Covers.operand {p : Pattern} {text : String} (h : Covers form r segments)
    (hp : p.Prefers text.toList r) :
    Covers (Grammar.operand p :: form) (text.toList ++ r) (⟨.operand, text.toList⟩ :: segments) :=
  h.cons hp

theorem Covers.fixed {p : Pattern} (h : Covers form r segments) (text : String)
    (hp : p.Prefers text.toList r) :
    Covers (Grammar.fixed p :: form) (text.toList ++ r) (⟨.fixed, text.toList⟩ :: segments) :=
  h.cons hp

/-- Without a marker, the text must not go on with the sign of one. -/
theorem Covers.marker (h : Covers form r segments) (deferred : Bool)
    (hr : deferred = false → Stops (· == '#') r) :
    Covers (Grammar.marker :: form) ((mark deferred).toList ++ r)
      (⟨.marker, (mark deferred).toList⟩ :: segments) := by
  refine h.cons ?_
  cases deferred with
  | false => exact prefers_none (ends_text_eq_nil (hr rfl))
  | true => exact prefers_altLeft prefers_text

end Form

/-- The source is one construct. -/
def Alone (tag : Tag) (operands : List String) (source : String) : Prop :=
  ∃ tokens, tokenize source = .ok tokens ∧
    tokens.map Located.value = .tag tag :: operands.map Token.operand ++ [.eof]

/-- The tokens of lexemes in a row, without their spans. -/
theorem Lexeme.map_value_stream (offset : Nat) (ls : List Lexeme) :
    (stream offset ls).map Located.value =
      ls.flatMap (fun l => .tag l.tag :: l.operands.map Token.operand) ++ [.eof] := by
  induction ls generalizing offset with
  | nil => rfl
  | cons l ls ih =>
    have htokens : (l.tokens offset).map Located.value =
        .tag l.tag :: l.operands.map Token.operand := by
      rw [tokens, operandTokens_eq, ← texts_phrase offset]
      simp [Phrase.texts, Phrase.operandToken, phrase, Function.comp_def]
    rw [stream, List.map_append, ih, htokens, List.flatMap_cons, List.append_assoc]

theorem Lexeme.map_value_stream_singleton (l : Lexeme) :
    (stream 0 [l]).map Located.value = .tag l.tag :: l.operands.map Token.operand ++ [.eof] := by
  rw [map_value_stream, List.flatMap_singleton]

/-- The rule of this name. -/
def Grammar.named (name : String) : Option Rule :=
  rules.find? fun rule => rule.name == name

/-- What the rule of this name reads at the front of a text. -/
def Lexeme.ofName? (name : String) (s : List Char) : Option Lexeme :=
  (Grammar.named name).bind (ofRule? s)

theorem Lexeme.ofName?_eq_some_iff {name : String} {s : List Char} {l : Lexeme} :
    ofName? name s = some l ↔ Grammar.named name = some l.rule ∧
      Form.read l.rule.form s = some l.segments ∧ l.text ≠ [] := by
  rw [ofName?, Option.bind_eq_some_iff]
  constructor
  · rintro ⟨rule, hrule, hl⟩
    obtain ⟨rfl, hread, hne⟩ := ofRule?_eq_some_iff.1 hl
    exact ⟨hrule, hread, hne⟩
  · rintro ⟨hrule, hread, hne⟩
    exact ⟨l.rule, hrule, ofRule?_eq_some_iff.2 ⟨rfl, hread, hne⟩⟩

theorem Lexeme.genuine_of_ofName? {name : String} {s : List Char} {l : Lexeme}
    (h : ofName? name s = some l) : l.Genuine ∧ ∃ rest, s = l.text ++ rest := by
  obtain ⟨hrule, hread, hne⟩ := ofName?_eq_some_iff.1 h
  obtain ⟨hreads, hrest⟩ := Form.reads_of_read hread
  exact ⟨⟨List.mem_of_find?_eq_some hrule, hreads, hne⟩, hrest⟩

theorem Lexeme.rule_of_ofName? {name : String} {rule : Rule} {s : List Char} {l : Lexeme}
    (hname : Grammar.named name = some rule) (h : ofName? name s = some l) : l.rule = rule :=
  Option.some.inj ((ofName?_eq_some_iff.1 h).1.symm.trans hname)

/-- What the rule of this name reads is a written form of its tag. -/
theorem Lexeme.written_of_ofName? {name : String} {rule : Rule} {s : List Char} {l : Lexeme}
    (tag : Tag) (hname : Grammar.named name = some rule)
    (htag : ∀ deferred, rule.tag deferred = tag) (h : ofName? name s = some l) :
    l.tag = tag ∧ ∃ operands text rest, l.operands = operands ∧ Written tag operands text ∧
      l.text = text.toList ∧ s = text.toList ++ rest := by
  obtain ⟨hgenuine, rest, hs⟩ := genuine_of_ofName? h
  obtain rfl := rule_of_ofName? hname h
  have hwritten := hgenuine.written
  rw [Lexeme.tag, htag] at hwritten
  exact ⟨htag _, _, _, rest, rfl, hwritten, String.toList_ofList.symm, by simpa using hs⟩

/-- A text that a rule reads as a whole is one construct, if it is no written form of a rival. -/
theorem alone_of_covers (name : String) {rule : Rule} {s : List Char} {segments : List Segment}
    {tag : Tag} {operands : List String} {source : String} (hname : Grammar.named name = some rule)
    (hcovers : Form.Covers rule.form s segments)
    (hrivals : ∀ rival ∈ tag.rivals, ∀ operands, ¬ Written rival operands (String.ofList s) := by
      simp [Tag.rivals])
    (hsource : source.toList = s := by simp)
    (htag : Lexeme.tag ⟨rule, segments⟩ = tag := by
      simp [Lexeme.tag, Grammar.rule, Lexeme.isDeferred_nil, Lexeme.isDeferred_marker,
        Lexeme.isDeferred_cons_of_ne])
    (hoperands : Lexeme.operands ⟨rule, segments⟩ = operands := by simp [Lexeme.operands]) :
    Alone tag operands source := by
  subst hsource htag hoperands
  have hrule : rule ∈ Grammar.rules := List.mem_of_find?_eq_some hname
  have hnext : Lexeme.next? source.toList = some ⟨rule, segments⟩ :=
    Lexeme.next?_of_read (l := ⟨rule, segments⟩) hrule hcovers.read_eq hcovers.text_eq hrivals
  exact ⟨_, tokenize_of_next? hnext hcovers.text_eq, Lexeme.map_value_stream_singleton _⟩

theorem Pattern.stops_word {ok : Char → Bool} {k : String} {r : List Char}
    (h : k.toList.head?.any (fun c => !ok c) = true := by decide) : Stops ok (k.toList ++ r) := by
  cases hk : k.toList with
  | nil => simp [hk] at h
  | cons c t => simpa [hk] using h

/-! ## Written forms that a rival takes -/

/-- A list is cut in one way only at the first place of an element. -/
theorem append_cons_inj {α : Type} {x : α} {a b a' b' : List α} (ha : x ∉ a) (ha' : x ∉ a')
    (h : a ++ x :: b = a' ++ x :: b') : a = a' ∧ b = b' := by
  induction a generalizing a' with
  | nil =>
    cases a' with
    | nil => exact ⟨rfl, (List.cons.inj h).2⟩
    | cons y a' =>
      obtain ⟨rfl, -⟩ := List.cons.inj h
      exact absurd List.mem_cons_self ha'
  | cons y a ih =>
    cases a' with
    | nil =>
      obtain ⟨rfl, -⟩ := List.cons.inj h
      exact absurd List.mem_cons_self ha
    | cons z a' =>
      rw [List.cons_append, List.cons_append, List.cons.injEq] at h
      obtain ⟨heq, hb⟩ :=
        ih (List.not_mem_of_not_mem_cons ha) (List.not_mem_of_not_mem_cons ha') h.2
      exact ⟨by rw [h.1, heq], hb⟩

/-- Values of a condition that are read as a value, a second operator and its value. -/
def HasSecondOperator (values : String) : Prop :=
  ∃ value gap operator value', conditionValue.Accepts value ∧ (gap = "" ∨ gap = " ") ∧
    comparison.Accepts operator ∧ conditionValue.Accepts value' ∧
    values = value ++ "," ++ gap ++ operator ++ " " ++ value'

/-- Nothing else claims the written form of these operands: no rival reads it as a whole, and no `#`
at the front of a value is read as the sign of a deferred construct. -/
def Tag.IsUnclaimed : Tag → List String → Prop
  | .constant deferred, [_, value] | .mutableVar deferred, [_, value] =>
    deferred = false → value.toList.head? ≠ some '#'
  | .returned, [value] => ∀ cls, Lexical.className.Accepts cls → value ≠ "~ " ++ cls
  | .oneOperator, [var, _, values] => var ≠ "return" ∧ ¬ HasSecondOperator values
  | .twoOperators, lhs :: _ | .elementwise, lhs :: _ | .estimate, lhs :: _ | .estimateTo, lhs :: _
  | .divMod, lhs :: _ | .magnitude, lhs :: _ | .magnitudeBy, lhs :: _ | .bitShift, lhs :: _ =>
    lhs ≠ "return"
  | _, _ => True

/-- A form that starts with another word than `return` is not that of a returned value. -/
theorem not_written_returned {lhs text : String} {rest : List Char}
    (htext : text.toList = lhs.toList ++ ' ' :: rest) (hspace : ' ' ∉ lhs.toList)
    (hne : lhs ≠ "return") (operands : List String) : ¬ Written .returned operands text := by
  intro h
  cases h with
  | @returned value hvalue =>
    have hword : "return".toList ++ ' ' :: value.toList = lhs.toList ++ ' ' :: rest := by
      rw [← htext]
      simp
    obtain ⟨hlhs, -⟩ := append_cons_inj (by decide) hspace hword
    exact hne (String.toList_inj.1 hlhs.symm)

/-- The words before the first space keep the rule of returned values away. -/
theorem forall_rivals_of_ne_return {lhs : String} {rest : List Char} (hspace : ' ' ∉ lhs.toList)
    (hne : lhs ≠ "return") :
    ∀ rival ∈ [Tag.returned], ∀ operands,
      ¬ Written rival operands (String.ofList (lhs.toList ++ ' ' :: rest)) :=
  List.forall_mem_singleton.2 (not_written_returned String.toList_ofList hspace hne)

/-- A returned value is written as an instance test only if the value goes on like one. -/
theorem not_written_instanceTest {value text : String}
    (htext : text.toList = "return".toList ++ ' ' :: value.toList)
    (h : ∀ cls, className.Accepts cls → value ≠ "~ " ++ cls) (operands : List String) :
    ¬ Written .instanceTest operands text := by
  intro hwritten
  cases hwritten with
  | @instanceTest var cls hvar hcls =>
    have hword : var.toList ++ ' ' :: ("~ " ++ cls).toList =
        "return".toList ++ ' ' :: value.toList := by
      rw [← htext]
      simp
    obtain ⟨-, hvalue⟩ := append_cons_inj (space_notMem_identifier hvar) (by decide) hword
    exact h cls hcls (String.toList_inj.1 hvalue.symm)

/-- A condition with one operator is written as one with two only if its values have a second
operator. -/
theorem not_written_twoOperators {var operator values text : String}
    (htext : text.toList = var.toList ++ ' ' :: (operator.toList ++ ' ' ::
      (values.toList ++ ") \x7b".toList)))
    (hvar : identifier.Accepts var) (hoperator : comparison.Accepts operator)
    (hvalues : ¬ HasSecondOperator values) (operands : List String) :
    ¬ Written .twoOperators operands text := by
  intro hwritten
  cases hwritten with
  | @twoOperators gap var' operator₁ value₁ operator₂ value₂ hgap hvar' hop₁ hval₁ hop₂ hval₂ =>
    have hwords : var'.toList ++ ' ' :: (operator₁.toList ++ ' ' ::
          ((value₁ ++ "," ++ gap ++ operator₂ ++ " " ++ value₂).toList ++ ") \x7b".toList)) =
        var.toList ++ ' ' :: (operator.toList ++ ' ' :: (values.toList ++ ") \x7b".toList)) := by
      rw [← htext]
      simp
    obtain ⟨-, hwords⟩ :=
      append_cons_inj (space_notMem_identifier hvar') (space_notMem_identifier hvar) hwords
    obtain ⟨-, hwords⟩ :=
      append_cons_inj (space_notMem_comparison hop₁) (space_notMem_comparison hoperator) hwords
    have hsplit := String.toList_inj.1 (List.append_cancel_right hwords)
    exact hvalues ⟨value₁, gap, operator₂, value₂, hval₁, hgap, hop₂, hval₂, hsplit.symm⟩

/-! ## Method calls -/

/-- The path of a method call takes all members at first and must give the last one back. Where it
stops is fixed by the last point before the parenthesis. -/
theorem Form.covers_methodCall {callee method : String} (hcallee : memberPath.Accepts callee)
    (hmethod : member.Accepts method) :
    Form.Covers [Grammar.operand memberPath, Grammar.word ".", Grammar.operand member,
        Grammar.word "("]
      (callee.toList ++ (".".toList ++ (method.toList ++ ("(".toList ++ []))))
      [⟨.operand, callee.toList⟩, ⟨.fixed, ".".toList⟩, ⟨.operand, method.toList⟩,
        ⟨.fixed, "(".toList⟩] := by
  have hrest : Form.Covers [Grammar.word ".", Grammar.operand member, Grammar.word "("]
      (".".toList ++ (method.toList ++ ("(".toList ++ [])))
      [⟨.fixed, ".".toList⟩, ⟨.operand, method.toList⟩, ⟨.fixed, "(".toList⟩] :=
    covers_nil.word |>.operand (prefers_member hmethod (stops_word (by decide))) |>.word
  refine ⟨read_cons_of_unique hcallee hrest.read_eq fun t s heq ht hread => ?_, by simp⟩
  obtain ⟨segments, hsegments⟩ := Option.ne_none_iff_exists'.1 hread
  obtain ⟨hreads, left, rfl⟩ := reads_of_read hsegments
  clear hread hsegments
  revert segments
  simp only [forall_reads_word, forall_reads_operand, forall_reads_nil]
  intro method' hmethod' heq
  have heq : (callee.toList ++ '.' :: method.toList) ++ '(' :: [] =
      (t ++ '.' :: method'.toList) ++ '(' :: left := by simpa using heq
  have hparen : '(' ∉ callee.toList ++ '.' :: method.toList := by
    simp [paren_notMem_memberPath hcallee, paren_notMem_member hmethod]
  have hparen' : '(' ∉ t ++ '.' :: method'.toList := by
    simp [paren_notMem_memberPath ht, paren_notMem_member hmethod']
  obtain ⟨hpath, rfl⟩ := append_cons_inj hparen hparen' heq
  -- Read from its end, a method name runs up to the first point.
  have hreverse : method.toList.reverse ++ '.' :: callee.toList.reverse =
      method'.toList.reverse ++ '.' :: t.reverse := by simpa using congrArg List.reverse hpath
  have hpoint : '.' ∉ method.toList.reverse := by simp [point_notMem_member hmethod]
  have hpoint' : '.' ∉ method'.toList.reverse := by simp [point_notMem_member hmethod']
  have hname := (append_cons_inj hpoint hpoint' hreverse).1
  simp [List.reverse_inj.1 hname]

/-! ## Reading written forms back -/

open Form

theorem alone_comment {rest : String} (hrest : restOfLine.Accepts rest) :
    Alone .comment ["//" ++ rest] ("//" ++ rest) := by
  -- The two strokes belong to the operand.
  generalize htext : "//" ++ rest = text
  have hcomment : Prefers (.seq (.text ['/', '/']) restOfLine) text.toList [] := by
    rw [← htext, String.toList_append]
    exact prefers_seq prefers_text (prefers_restOfLine hrest)
  exact alone_of_covers "line_comment" rfl (covers_nil.operand hcomment) (by simp [Tag.rivals])
    (by simp) (by simp [Lexeme.tag, Grammar.rule]) (by simp [Lexeme.operands])

/-- A value at the end of the source does not go on with a sign if it does not start with one. -/
theorem stops_sign {deferred : Bool} {value : String}
    (h : deferred = false → value.toList.head? ≠ some '#') :
    deferred = false → Stops (· == '#') (value.toList ++ []) := by
  rw [List.append_nil, stops_beq_iff]
  exact h

theorem alone_mutableVar {deferred : Bool} {var value : String} (hvar : identifier.Accepts var)
    (hvalue : restOfLine.Accepts value) (hsign : deferred = false → value.toList.head? ≠ some '#') :
    Alone (.mutableVar deferred) [var, value]
      ("jawn* " ++ var ++ " := " ++ mark deferred ++ value) :=
  alone_of_covers "var_mut" rfl
    (covers_nil.operand (prefers_restOfLine hvalue) |>.marker deferred (stops_sign hsign) |>.word
      |>.operand (prefers_identifier hvar (stops_word (by decide))) |>.word)
    (by simp [Tag.rivals]) (by simp) (by simp [Lexeme.tag]) (by simp [Lexeme.operands])

theorem alone_constant {deferred : Bool} {var value : String} (hvar : identifier.Accepts var)
    (hvalue : declaredValue.Accepts value)
    (hsign : deferred = false → value.toList.head? ≠ some '#') :
    Alone (.constant deferred) [var, value] ("jawn " ++ var ++ " := " ++ mark deferred ++ value) :=
  alone_of_covers "var" rfl
    (covers_nil.operand (prefers_declaredValue hvalue) |>.marker deferred (stops_sign hsign) |>.word
      |>.operand (prefers_identifier hvar (stops_word (by decide))) |>.word)
    (by simp [Tag.rivals]) (by simp) (by simp [Lexeme.tag]) (by simp [Lexeme.operands])

theorem alone_methodCall (deferred : Bool) {callee method : String}
    (hcallee : memberPath.Accepts callee) (hmethod : member.Accepts method) :
    Alone (.methodCall deferred) [callee, method]
      (mark deferred ++ callee ++ "." ++ method ++ "(") := by
  have hsharp : ∀ c, isMemberStart c = true → (c == '#') = false := by
    intro c hc
    rw [beq_eq_false_iff_ne]
    rintro rfl
    cases hc
  exact alone_of_covers "method" rfl
    ((covers_methodCall hcallee hmethod).marker deferred fun _ => stops_memberPath hcallee hsharp)
    (by simp [Tag.rivals]) (by simp) (by simp [Lexeme.tag]) (by simp [Lexeme.operands])

theorem alone_returned {value : String} (hvalue : restOfLine.Accepts value)
    (htest : ∀ cls, className.Accepts cls → value ≠ "~ " ++ cls) :
    Alone .returned [value] ("return " ++ value) := by
  have htext : (String.ofList ("return ".toList ++ (value.toList ++ []))).toList =
      "return".toList ++ ' ' :: value.toList := by simp
  exact alone_of_covers "return" rfl
    (covers_nil.operand (prefers_restOfLine hvalue) |>.word)
    (List.forall_mem_singleton.2 (not_written_instanceTest htext htest))
    (by simp) (by simp [Lexeme.tag, Grammar.rule]) (by simp [Lexeme.operands])

theorem alone_twoOperators {gap var operator value operator' value' : String}
    (hgap : gap = "" ∨ gap = " ") (hvar : identifier.Accepts var)
    (hoperator : comparison.Accepts operator) (hvalue : conditionValue.Accepts value)
    (hoperator' : comparison.Accepts operator') (hvalue' : conditionValue.Accepts value')
    (hreturn : var ≠ "return") :
    Alone .twoOperators [var, operator, value, operator', value']
      (var ++ " " ++ operator ++ " " ++ value ++ "," ++ gap ++ operator' ++ " " ++ value' ++
        ") \x7b") :=
  alone_of_covers "cond_many_many_operator" rfl
    (covers_nil.word |>.operand (prefers_conditionValue hvalue' (stops_word (by decide))) |>.word
      |>.operand (prefers_comparison hoperator' (stops_word (by decide)))
      |>.fixed gap (prefers_gap hgap hoperator') |>.word
      |>.operand (prefers_conditionValue hvalue (stops_word (by decide))) |>.word
      |>.operand (prefers_comparison hoperator (stops_word (by decide))) |>.word
      |>.operand (prefers_identifier hvar (stops_word (by decide))))
    (forall_rivals_of_ne_return (space_notMem_identifier hvar) hreturn)
    (by simp) (by simp [Lexeme.tag, Grammar.rule]) (by simp [Lexeme.operands])

theorem alone_oneOperator {var operator values : String} (hvar : identifier.Accepts var)
    (hoperator : comparison.Accepts operator) (hvalues : conditionValues.Accepts values)
    (hreturn : var ≠ "return") (hsecond : ¬ HasSecondOperator values) :
    Alone .oneOperator [var, operator, values]
      (var ++ " " ++ operator ++ " " ++ values ++ ") \x7b") :=
  alone_of_covers "cond_many_single_operator" rfl
    (covers_nil.word
      |>.operand
        (prefers_conditionValues hvalues (stops_word (by decide)) (stops_word (by decide))) |>.word
      |>.operand (prefers_comparison hoperator (stops_word (by decide))) |>.word
      |>.operand (prefers_identifier hvar (stops_word (by decide))))
    (List.forall_mem_cons.2
      ⟨not_written_returned String.toList_ofList (space_notMem_identifier hvar) hreturn,
        List.forall_mem_singleton.2
          (not_written_twoOperators String.toList_ofList hvar hoperator hsecond)⟩)
    (by simp) (by simp [Lexeme.tag, Grammar.rule]) (by simp [Lexeme.operands])

/-- A written form is read back as its construct, if no other construct claims it. -/
theorem tokenize_of_written {tag : Tag} {operands : List String} {text : String}
    (h : Written tag operands text) (hunclaimed : tag.IsUnclaimed operands) :
    Alone tag operands text := by
  cases h with
  | lineFeed =>
    exact alone_of_covers "newline" rfl
      (covers_nil.word |>.fixed "" (prefers_none (ends_text_eq_nil (by simp))))
  | carriageReturn =>
    exact alone_of_covers "newline" rfl
      (covers_nil.word |>.fixed "\r" (prefers_altLeft prefers_text))
  | blank => exact alone_of_covers "space" rfl (covers_nil.fixed " " (prefers_one rfl))
  | tab => exact alone_of_covers "space" rfl (covers_nil.fixed "\t" (prefers_one rfl))
  | comment hrest => exact alone_comment hrest
  | subclassHead hname hparent =>
    exact alone_of_covers "class_extension" rfl
      (covers_nil.word |>.operand (prefers_className hparent stops_word) |>.word
        |>.operand (prefers_className hname stops_word) |>.word)
  | classHead hname =>
    exact alone_of_covers "class" rfl
      (covers_nil.word |>.operand (prefers_className hname stops_word) |>.word)
  | instantiation hvar hcls =>
    exact alone_of_covers "class_instantiation" rfl
      (covers_nil.operand (prefers_className hcls stops_nil) |>.word
        |>.operand (prefers_identifier hvar stops_word) |>.word)
  | instanceTest hvar hcls =>
    exact alone_of_covers "instanceof" rfl
      (covers_nil.operand (prefers_className hcls stops_nil) |>.word
        |>.operand (prefers_identifier hvar stops_word))
  | atomConstant hvar hatom =>
    exact alone_of_covers "atom_instantiation" rfl
      (covers_nil.operand (prefers_identifier hatom stops_nil) |>.word
        |>.operand (prefers_identifier hvar stops_word) |>.word)
  | mutableVar deferred hvar hvalue => exact alone_mutableVar hvar hvalue hunclaimed
  | constant deferred hvar hvalue => exact alone_constant hvar hvalue hunclaimed
  | functionHead deferred hname =>
    exact alone_of_covers "function_noparam" rfl
      (covers_nil.word |>.operand (prefers_functionName hname stops_word) |>.word
        |>.marker deferred (fun _ => stops_word) |>.word)
  | methodCall deferred hcallee hmethod => exact alone_methodCall deferred hcallee hmethod
  | returned hvalue => exact alone_returned hvalue hunclaimed
  | ifHead => exact alone_of_covers "cond_init" rfl covers_nil.word
  | elseHead => exact alone_of_covers "cond_else" rfl covers_nil.word
  | twoOperators hgap hvar hoperator hvalue hoperator' hvalue' =>
    exact alone_twoOperators hgap hvar hoperator hvalue hoperator' hvalue' hunclaimed
  | oneOperator hvar hoperator hvalues =>
    exact alone_oneOperator hvar hoperator hvalues hunclaimed.1 hunclaimed.2
  | maybe => exact alone_of_covers "maybe" rfl covers_nil.word
  | maybeWeighted hweight =>
    exact alone_of_covers "maybe_weighted" rfl
      (covers_nil.word |>.operand (prefers_probability hweight stops_word) |>.word)
  | doubleQuoted hbody =>
    exact alone_of_covers "static_string_double" rfl
      (covers_nil.word |>.operand (prefers_quotedBody (by decide) hbody)
        |>.operand (show Prefers (.text ['"']) "\"".toList _ from prefers_text))
  | singleQuoted hbody =>
    exact alone_of_covers "static_string_single" rfl
      (covers_nil.word |>.operand (prefers_quotedBody (by decide) hbody)
        |>.operand (show Prefers (.text ['\'']) "'".toList _ from prefers_text))
  | template hbody =>
    exact alone_of_covers "static_string_backtick" rfl
      (covers_nil.word |>.operand (prefers_templateBody hbody)
        |>.operand (show Prefers (.text ['\x60']) "`".toList _ from prefers_text))
  | atomName hatom =>
    exact alone_of_covers "atom_print" rfl
      (covers_nil.word |>.operand (prefers_identifier hatom stops_word) |>.word)
  | slice hvar hstart hstop =>
    exact alone_of_covers "range" rfl
      (covers_nil.word |>.operand (prefers_digits hstop stops_word) |>.word
        |>.operand (prefers_digits hstart stops_word) |>.word
        |>.operand (prefers_identifier hvar stops_word))
  | elementwise hvar hoperator hoperand =>
    exact alone_of_covers "array_arithmetic" rfl
      (covers_nil.operand (prefers_value hoperand stops_nil) |>.word
        |>.operand (firm_one _ _ hoperator) |>.word
        |>.operand (prefers_identifier hvar stops_word))
      (forall_rivals_of_ne_return (space_notMem_identifier hvar) hunclaimed)
  | notEqual => exact alone_of_covers "nequal" rfl covers_nil.word
  | estimateTo hlhs hprecision hrhs =>
    exact alone_of_covers "estimate_precise" rfl
      (covers_nil.operand (prefers_value hrhs stops_nil) |>.word
        |>.operand (prefers_number hprecision stops_word) |>.word
        |>.operand (prefers_value hlhs stops_word))
      (forall_rivals_of_ne_return (space_notMem_value hlhs) hunclaimed)
  | estimate hlhs hrhs =>
    exact alone_of_covers "estimate" rfl
      (covers_nil.operand (prefers_value hrhs stops_nil) |>.word
        |>.operand (prefers_value hlhs stops_word))
      (forall_rivals_of_ne_return (space_notMem_value hlhs) hunclaimed)
  | divMod hlhs hrhs =>
    exact alone_of_covers "div_remain" rfl
      (covers_nil.operand (prefers_value hrhs stops_nil) |>.word
        |>.operand (prefers_value hlhs stops_word))
      (forall_rivals_of_ne_return (space_notMem_value hlhs) hunclaimed)
  | factorial hoperand =>
    exact alone_of_covers "factorial" rfl
      (covers_nil.word |>.operand (prefers_digits hoperand stops_word))
  | magnitudeBy hlhs hsign hfactor hrhs =>
    exact alone_of_covers "magnitude_precise" rfl
      (covers_nil.operand (prefers_value hrhs stops_nil) |>.word
        |>.operand (prefers_number hfactor stops_word) |>.word
        |>.operand (firm_magnitudeSign _ _ hsign) |>.word
        |>.operand (prefers_value hlhs stops_word))
      (forall_rivals_of_ne_return (space_notMem_value hlhs) hunclaimed)
  | magnitude hlhs hsign hrhs =>
    exact alone_of_covers "magnitude" rfl
      (covers_nil.operand (prefers_value hrhs stops_nil) |>.word
        |>.operand (firm_magnitudeSign _ _ hsign) |>.word
        |>.operand (prefers_value hlhs stops_word))
      (forall_rivals_of_ne_return (space_notMem_value hlhs) hunclaimed)
  | bitShift hlhs hdirection hrhs =>
    exact alone_of_covers "bitshift" rfl
      (covers_nil.operand (prefers_value hrhs stops_nil) |>.word
        |>.operand (firm_shiftWord _ _ hdirection) |>.word
        |>.operand (prefers_value hlhs stops_word))
      (forall_rivals_of_ne_return (space_notMem_value hlhs) hunclaimed)
  | varName hvar =>
    exact alone_of_covers "var_call" rfl
      (covers_nil.operand (prefers_identifier hvar stops_nil))
  | className hcls =>
    exact alone_of_covers "class_call" rfl
      (covers_nil.operand (prefers_className hcls stops_nil))
  | memberName hname =>
    exact alone_of_covers "member_access" rfl
      (covers_nil.operand (prefers_member hname stops_nil) |>.word)
  | number hdigits =>
    exact alone_of_covers "number" rfl
      (covers_nil.operand (prefers_number hdigits stops_nil))
  | operator hsign =>
    exact alone_of_covers "operator" rfl
      (covers_nil.operand (prefers_operator hsign))
  | comma => exact alone_of_covers "comma" rfl covers_nil.word
  | openParen => exact alone_of_covers "open_parenth" rfl covers_nil.word
  | closeParen => exact alone_of_covers "close_parenth" rfl covers_nil.word
  | openCurly => exact alone_of_covers "open_curly" rfl covers_nil.word
  | closeCurly => exact alone_of_covers "close_curly" rfl covers_nil.word
  | openSquare => exact alone_of_covers "open_bracket" rfl covers_nil.word
  | closeSquare => exact alone_of_covers "close_bracket" rfl covers_nil.word

/-- A keyword is a variable where it stands as an operand. -/
theorem tokenize_of_written_magnitude :
    Written .magnitude ["jawn", ">>", "-1.5"] ("jawn" ++ " " ++ ">>" ++ " " ++ "-1.5") ∧
    Tag.IsUnclaimed .magnitude ["jawn", ">>", "-1.5"] ∧
    Alone .magnitude ["jawn", ">>", "-1.5"] ("jawn" ++ " " ++ ">>" ++ " " ++ "-1.5") := by
  have hwritten : Written .magnitude ["jawn", ">>", "-1.5"]
      ("jawn" ++ " " ++ ">>" ++ " " ++ "-1.5") := .magnitude (by decide) (by decide) (by decide)
  have hunclaimed : Tag.IsUnclaimed .magnitude ["jawn", ">>", "-1.5"] := by
    show "jawn" ≠ "return"
    decide
  exact ⟨hwritten, hunclaimed, tokenize_of_written hwritten hunclaimed⟩

end Jawn
