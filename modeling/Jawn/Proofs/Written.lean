import Jawn.Proofs.Lexeme

/-!
# How constructs are written

`Written tag operands text` is the table of source forms: it says that a construct with this tag and
these operands, each of its lexical class, is written as `text`. A construct has one written form,
but a line end can be `\n` or `\r\n`, a space can be a tab, and a space may stand behind the comma
of a condition with two operators.

* `Lexeme.Genuine.written`: every lexeme that the grammar can read is the written form of its tag
  with its operands.
-/

namespace Jawn

open Lexical in
/-- A construct with this tag and these operands is written as this text. -/
inductive Written : Tag → List String → String → Prop where
  | lineFeed : Written .newline [] "\n"
  | carriageReturn : Written .newline [] "\r\n"
  | blank : Written .space [] " "
  | tab : Written .space [] "\t"
  | comment {rest : String} (hrest : restOfLine.Accepts rest) :
    Written .comment ["//" ++ rest] ("//" ++ rest)
  | subclassHead {name parent : String} (hname : className.Accepts name)
      (hparent : className.Accepts parent) :
    Written .subclassHead [name, parent] ("boul " ++ name ++ " <- " ++ parent ++ " \x7b")
  | classHead {name : String} (hname : className.Accepts name) :
    Written .classHead [name] ("boul " ++ name ++ " \x7b")
  | instantiation {var cls : String} (hvar : identifier.Accepts var) (hcls : className.Accepts cls) :
    Written .instantiation [var, cls] ("jawn " ++ var ++ " @ " ++ cls)
  | instanceTest {var cls : String} (hvar : identifier.Accepts var) (hcls : className.Accepts cls) :
    Written .instanceTest [var, cls] (var ++ " ~ " ++ cls)
  | atomConstant {var atom : String} (hvar : identifier.Accepts var)
      (hatom : identifier.Accepts atom) :
    Written .atomConstant [var, atom] ("jawn " ++ var ++ " := :" ++ atom)
  | mutableVar (deferred : Bool) {var value : String} (hvar : identifier.Accepts var)
      (hvalue : restOfLine.Accepts value) :
    Written (.mutableVar deferred) [var, value] ("jawn* " ++ var ++ " := " ++ mark deferred ++ value)
  | constant (deferred : Bool) {var value : String} (hvar : identifier.Accepts var)
      (hvalue : declaredValue.Accepts value) :
    Written (.constant deferred) [var, value] ("jawn " ++ var ++ " := " ++ mark deferred ++ value)
  | functionHead (deferred : Bool) {name : String} (hname : functionName.Accepts name) :
    Written (.functionHead deferred) [name] ("fun" ++ mark deferred ++ " " ++ name ++ " \x7b")
  | methodCall (deferred : Bool) {callee method : String} (hcallee : memberPath.Accepts callee)
      (hmethod : member.Accepts method) :
    Written (.methodCall deferred) [callee, method] (mark deferred ++ callee ++ "." ++ method ++ "(")
  | returned {value : String} (hvalue : restOfLine.Accepts value) :
    Written .returned [value] ("return " ++ value)
  | ifHead : Written .ifHead [] "if ("
  | elseHead : Written .elseHead [] "else \x7b"
  | twoOperators {gap var operator value operator' value' : String} (hgap : gap = "" ∨ gap = " ")
      (hvar : identifier.Accepts var) (hoperator : comparison.Accepts operator)
      (hvalue : conditionValue.Accepts value) (hoperator' : comparison.Accepts operator')
      (hvalue' : conditionValue.Accepts value') :
    Written .twoOperators [var, operator, value, operator', value']
      (var ++ " " ++ operator ++ " " ++ value ++ "," ++ gap ++ operator' ++ " " ++ value' ++ ") \x7b")
  | oneOperator {var operator values : String} (hvar : identifier.Accepts var)
      (hoperator : comparison.Accepts operator) (hvalues : conditionValues.Accepts values) :
    Written .oneOperator [var, operator, values]
      (var ++ " " ++ operator ++ " " ++ values ++ ") \x7b")
  | maybe : Written .maybe [] "maybe) \x7b"
  | maybeWeighted {weight : String} (hweight : probability.Accepts weight) :
    Written .maybeWeighted [weight] ("maybe(" ++ weight ++ ")) \x7b")
  | doubleQuoted {body : String} (hbody : (quotedBody '"').Accepts body) :
    Written .quotedString ["\"", body] ("\"" ++ body ++ "\"")
  | singleQuoted {body : String} (hbody : (quotedBody '\'').Accepts body) :
    Written .quotedString ["'", body] ("'" ++ body ++ "'")
  | template {body : String} (hbody : templateBody.Accepts body) :
    Written .quotedString ["`", body] ("`" ++ body ++ "`")
  | atomName {atom : String} (hatom : identifier.Accepts atom) :
    Written .atomName [atom] (":" ++ atom ++ ":")
  | slice {var start stop : String} (hvar : identifier.Accepts var) (hstart : digits.Accepts start)
      (hstop : digits.Accepts stop) :
    Written .slice [var, start, stop] (var ++ "[" ++ start ++ ":" ++ stop ++ "]")
  | elementwise {var operator operand : String} (hvar : identifier.Accepts var)
      (hoperator : arithmetic.Accepts operator) (hoperand : value.Accepts operand) :
    Written .elementwise [var, operator, operand] (var ++ " ." ++ operator ++ " " ++ operand)
  | notEqual : Written .notEqual [] "=/="
  | estimateTo {lhs precision rhs : String} (hlhs : value.Accepts lhs)
      (hprecision : number.Accepts precision) (hrhs : value.Accepts rhs) :
    Written .estimateTo [lhs, precision, rhs] (lhs ++ " ~=[" ++ precision ++ "] " ++ rhs)
  | estimate {lhs rhs : String} (hlhs : value.Accepts lhs) (hrhs : value.Accepts rhs) :
    Written .estimate [lhs, rhs] (lhs ++ " ~= " ++ rhs)
  | divMod {lhs rhs : String} (hlhs : value.Accepts lhs) (hrhs : value.Accepts rhs) :
    Written .divMod [lhs, rhs] (lhs ++ " /% " ++ rhs)
  | factorial {operand : String} (hoperand : digits.Accepts operand) :
    Written .factorial [operand] (operand ++ "!")
  | magnitudeBy {lhs sign factor rhs : String} (hlhs : value.Accepts lhs)
      (hsign : magnitudeSign.Accepts sign) (hfactor : number.Accepts factor)
      (hrhs : value.Accepts rhs) :
    Written .magnitudeBy [lhs, sign, factor, rhs]
      (lhs ++ " " ++ sign ++ "[" ++ factor ++ "] " ++ rhs)
  | magnitude {lhs sign rhs : String} (hlhs : value.Accepts lhs)
      (hsign : magnitudeSign.Accepts sign) (hrhs : value.Accepts rhs) :
    Written .magnitude [lhs, sign, rhs] (lhs ++ " " ++ sign ++ " " ++ rhs)
  | bitShift {lhs direction rhs : String} (hlhs : value.Accepts lhs)
      (hdirection : shiftWord.Accepts direction) (hrhs : value.Accepts rhs) :
    Written .bitShift [lhs, direction, rhs] (lhs ++ " " ++ direction ++ " " ++ rhs)
  | varName {var : String} (hvar : identifier.Accepts var) : Written .varName [var] var
  | className {cls : String} (hcls : className.Accepts cls) : Written .className [cls] cls
  | memberName {name : String} (hname : member.Accepts name) :
    Written .memberName [name] ("." ++ name)
  | number {digits : String} (hdigits : number.Accepts digits) : Written .number [digits] digits
  | operator {sign : String} (hsign : operator.Accepts sign) : Written .operator [sign] sign
  | comma : Written .comma [] ","
  | openParen : Written .openParen [] "("
  | closeParen : Written .closeParen [] ")"
  | openCurly : Written .openCurly [] "\x7b"
  | closeCurly : Written .closeCurly [] "\x7d"
  | openSquare : Written .openSquare [] "["
  | closeSquare : Written .closeSquare [] "]"

/-- Apart from a line end, a space and a condition with two operators, a construct has only one
written form. -/
theorem Written.unique {tag : Tag} {operands : List String} {text text' : String}
    (h : Written tag operands text) (h' : Written tag operands text')
    (hchoice : tag ∉ [.newline, .space, .twoOperators]) : text = text' := by
  cases h with
  | lineFeed | carriageReturn | blank | tab | twoOperators => simp at hchoice
  | comment =>
    -- The operand is the whole comment, so its shape does not determine the rest of the line.
    generalize hoperands : ["//" ++ _] = operands at h'
    cases h'
    exact List.singleton_inj.1 hoperands
  | doubleQuoted | singleQuoted | template =>
    -- The quotes are an operand, and tell the three forms of a string apart.
    generalize hoperands : [_, _] = operands at h'
    cases h' with
    | doubleQuoted | singleQuoted | template => simp_all
  | _ =>
    -- The tag belongs to one form only.
    cases h'
    rfl

namespace Lexeme

/-- The texts of the operands of a lexeme. -/
def operands (l : Lexeme) : List String :=
  (l.segments.filter (·.role = .operand)).map fun segment => String.ofList segment.text

section

variable (rule : Rule) (role : Role) (text : String) (segments : List Segment)

theorem operands_nil : operands ⟨rule, []⟩ = [] := rfl

theorem operands_cons :
    operands ⟨rule, ⟨role, text.toList⟩ :: segments⟩ =
      if role = .operand then text :: operands ⟨rule, segments⟩ else operands ⟨rule, segments⟩ := by
  by_cases h : role = .operand <;> simp [operands, h]

@[simp]
theorem isDeferred_nil : isDeferred ⟨rule, []⟩ = false := rfl

@[simp]
theorem isDeferred_cons_of_ne {segment : Segment} (h : segment.role ≠ .marker) :
    isDeferred ⟨rule, segment :: segments⟩ = isDeferred ⟨rule, segments⟩ := by
  simp [isDeferred, h]

@[simp]
theorem isDeferred_marker (deferred : Bool) :
    isDeferred ⟨rule, ⟨.marker, (mark deferred).toList⟩ :: segments⟩ =
      (deferred || isDeferred ⟨rule, segments⟩) := by
  cases deferred <;> simp [isDeferred, mark]

theorem ofList_text_nil : String.ofList (Lexeme.text ⟨rule, []⟩) = "" := rfl

theorem ofList_text_cons :
    String.ofList (Lexeme.text ⟨rule, ⟨role, text.toList⟩ :: segments⟩) =
      text ++ String.ofList (Lexeme.text ⟨rule, segments⟩) := by
  simp [Lexeme.text, String.ofList_append]

end

/-- Every rule reads only written forms of its tag. -/
theorem written_of_reads : ∀ rule ∈ Grammar.rules, ∀ segments, rule.form.Reads segments →
    Written (tag ⟨rule, segments⟩) (operands ⟨rule, segments⟩)
      (String.ofList (Lexeme.text ⟨rule, segments⟩)) := by
  -- Each form is taken apart into its operands; what is left for a rule is its line of the table.
  simp only [Grammar.rules, Grammar.rule, List.forall_mem_cons, Form.forall_reads_word,
    Form.forall_reads_operand, Form.forall_reads_fixed, Form.forall_reads_marker,
    Form.forall_reads_nil, tag, operands_nil, operands_cons, isDeferred_nil, isDeferred_marker,
    ne_eq, reduceCtorEq, not_false_eq_true, isDeferred_cons_of_ne, if_true, if_false,
    ofList_text_nil, ofList_text_cons, String.append_empty, Bool.or_false, ← String.append_assoc]
  refine ⟨?newline, ?space, ?comment, fun _ hname _ hparent => .subclassHead hname hparent,
    fun _ hname => .classHead hname, fun _ hvar _ hcls => .instantiation hvar hcls,
    fun _ hvar _ hcls => .instanceTest hvar hcls, fun _ hvar _ hatom => .atomConstant hvar hatom,
    fun _ hvar deferred _ hvalue => .mutableVar deferred hvar hvalue,
    fun _ hvar deferred _ hvalue => .constant deferred hvar hvalue,
    fun deferred _ hname => .functionHead deferred hname,
    fun deferred _ hcallee _ hmethod => .methodCall deferred hcallee hmethod,
    fun _ hvalue => .returned hvalue, .ifHead, .elseHead, ?twoOperators,
    fun _ hvar _ hoperator _ hvalues => .oneOperator hvar hoperator hvalues, .maybe,
    fun _ hweight => .maybeWeighted hweight, ?doubleQuoted, ?singleQuoted, ?template,
    fun _ hatom => .atomName hatom, fun _ hvar _ hstart _ hstop => .slice hvar hstart hstop,
    fun _ hvar _ hoperator _ hoperand => .elementwise hvar hoperator hoperand, .notEqual,
    fun _ hlhs _ hprecision _ hrhs => .estimateTo hlhs hprecision hrhs,
    fun _ hlhs _ hrhs => .estimate hlhs hrhs, fun _ hlhs _ hrhs => .divMod hlhs hrhs,
    fun _ hoperand => .factorial hoperand,
    fun _ hlhs _ hsign _ hfactor _ hrhs => .magnitudeBy hlhs hsign hfactor hrhs,
    fun _ hlhs _ hsign _ hrhs => .magnitude hlhs hsign hrhs,
    fun _ hlhs _ hdirection _ hrhs => .bitShift hlhs hdirection hrhs, fun _ hvar => .varName hvar,
    fun _ hcls => .className hcls, fun _ hname => .memberName hname,
    fun _ hdigits => .number hdigits, fun _ hsign => .operator hsign, .comma, .openParen,
    .closeParen, .openCurly, .closeCurly, .openSquare, .closeSquare, ?none⟩
  case newline =>
    intro gap hgap
    rcases Pattern.matches_optional.1 hgap with h | h
    · obtain rfl : gap = "\r" := String.toList_inj.1 (Pattern.matches_text.1 h)
      exact .carriageReturn
    · obtain rfl : gap = "" := String.toList_inj.1 h
      exact .lineFeed
  case space =>
    intro text htext
    obtain ⟨c, hc, h⟩ := Pattern.matches_one.1 htext
    obtain rfl : text = String.ofList [c] := String.toList_inj.1 (by simpa using h)
    rcases Bool.or_eq_true_iff.1 hc with hc | hc
    · obtain rfl := eq_of_beq hc
      exact .blank
    · obtain rfl := eq_of_beq hc
      exact .tab
  case comment =>
    intro text htext
    obtain ⟨start, rest, hstart, hrest, h⟩ := Pattern.matches_seq.1 htext
    obtain rfl := Pattern.matches_text.1 hstart
    obtain rfl : text = "//" ++ String.ofList rest := String.toList_inj.1 (by simpa using h)
    exact .comment (by simpa [Pattern.Accepts] using hrest)
  case twoOperators =>
    intro var hvar operator hoperator value hvalue gap hgap operator' hoperator' value' hvalue'
    refine .twoOperators ?_ hvar hoperator hvalue hoperator' hvalue'
    rcases Pattern.matches_optional.1 hgap with h | h
    · exact .inr (String.toList_inj.1 (Pattern.matches_text.1 h))
    · exact .inl (String.toList_inj.1 h)
  case doubleQuoted =>
    intro quote hquote body hbody
    obtain rfl : quote = "\"" := String.toList_inj.1 (Pattern.matches_text.1 hquote)
    exact .doubleQuoted hbody
  case singleQuoted =>
    intro quote hquote body hbody
    obtain rfl : quote = "'" := String.toList_inj.1 (Pattern.matches_text.1 hquote)
    exact .singleQuoted hbody
  case template =>
    intro quote hquote body hbody
    obtain rfl : quote = "`" := String.toList_inj.1 (Pattern.matches_text.1 hquote)
    exact .template hbody
  case none => simp

/-- A genuine lexeme is the written form of its tag with its operands. -/
theorem Genuine.written {l : Lexeme} (h : l.Genuine) :
    Written l.tag l.operands (String.ofList l.text) :=
  written_of_reads l.rule h.rule_mem l.segments h.reads

end Lexeme

end Jawn
