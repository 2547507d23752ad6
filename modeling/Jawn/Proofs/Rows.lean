import Jawn.Proofs.Acceptance
import Jawn.Proofs.Output
import Jawn.Proofs.Verbatim

/-!
# Rows of the output

Every construct is written in the row in which it stands in the source:

* `Construct.lineFeeds_render`: a fragment has the line feeds of its operands, and one more if it is
  a line end;
* `Slots.exists_mem_of_complete`: the texts of a construct have only characters of its operands;
* `Grammar.rules_lineFeed`: only line ends and strings can have line feeds in the source;
* `Lexeme.lineFeeds_render`: so a lexeme and its fragment have equally many line feeds;
* `Program.lineFeeds_render`: and so do lexemes and their fragments one after the other;
* `rows_of_parse`: up to each construct, the source and the output have equally many rows.
-/

namespace Jawn

/-- The number of line feeds in a text. -/
def lineFeeds (text : String) : Nat :=
  text.toList.count '\n'

theorem lineFeeds_append (a b : String) : lineFeeds (a ++ b) = lineFeeds a + lineFeeds b := by
  rw [lineFeeds, String.toList_append, List.count_append]
  rfl

theorem lineFeeds_ofList (text : List Char) :
    lineFeeds (String.ofList text) = text.count '\n' := by
  rw [lineFeeds, String.toList_ofList]

theorem lineFeeds_eq_zero_iff {text : String} : lineFeeds text = 0 ↔ '\n' ∉ text.toList :=
  List.count_eq_zero

theorem lineFeeds_intercalate {sep : String} {texts : List String} (hsep : lineFeeds sep = 0)
    (h : ∀ t ∈ texts, lineFeeds t = 0) : lineFeeds (sep.intercalate texts) = 0 := by
  induction texts with
  | nil => rfl
  | cons t texts ih =>
    rw [List.forall_mem_cons] at h
    cases texts with
    | nil =>
      rw [String.intercalate_singleton]
      exact h.1
    | cons u texts =>
      rw [String.intercalate_cons_cons, lineFeeds_append, lineFeeds_append, h.1, hsep, ih h.2]

/-! ## Fragments -/

namespace Construct

/-- A fragment whose operands have no line feeds has none, unless it is a line end. -/
theorem lineFeeds_render {c : Construct} (h : ∀ t ∈ c.texts, lineFeeds t = 0) :
    lineFeeds c.render = if c = .newline then 1 else 0 := by
  cases c with
  | oneOperator var op values =>
    simp only [texts, List.forall_mem_cons] at h
    have hvalues : lineFeeds (" || ".intercalate
        (values.map fun value => var ++ " " ++ op ++ " " ++ value)) = 0 := by
      refine lineFeeds_intercalate rfl (List.forall_mem_map.2 fun value hvalue => ?_)
      simp only [lineFeeds_append, h.1, h.2.1, h.2.2 value hvalue]
      rfl
    unfold render
    rw [lineFeeds_append, hvalues]
    rfl
  | functionHead _ deferred | methodCall _ _ deferred =>
    simp only [texts, List.forall_mem_cons] at h
    unfold render
    simp only [lineFeeds_append, h]
    cases deferred <;> rfl
  | constant _ _ deferred | mutableVar _ _ deferred =>
    simp only [texts, List.forall_mem_cons] at h
    unfold render renderDeclaration
    simp only [lineFeeds_append, h]
    cases deferred <;> rfl
  | quotedString quote value =>
    simp only [texts, List.forall_mem_cons] at h
    unfold render
    simp only [lineFeeds_append, h]
    cases quote <;> rfl
  | magnitude _ sign _ | magnitudeBy _ sign _ _ =>
    simp only [texts, List.forall_mem_cons] at h
    unfold render renderMagnitude
    cases sign <;> simp only [lineFeeds_append, h] <;> rfl
  | bitShift lhs direction rhs =>
    simp only [texts, List.forall_mem_cons] at h
    unfold render
    simp only [lineFeeds_append, h]
    cases direction <;> rfl
  | _ =>
    unfold render
    simp only [texts, List.forall_mem_cons] at h
    simp only [Comparison.display, lineFeeds_append, h]
    rfl

end Construct

/-! ## Operands -/

theorem mem_of_mem_trim {c : Char} {t : List Char} (h : c ∈ trim t) : c ∈ t := by
  rw [trim, List.mem_reverse] at h
  have hfront := List.dropWhile_subset _ h
  rw [List.mem_reverse] at hfront
  exact List.dropWhile_subset _ hfront

theorem Condition.mem_of_mem_pieces {s piece : List Char} (h : piece ∈ pieces s) :
    ∀ c ∈ piece, c ∈ s := by
  fun_induction pieces s with
  | case1 => cases h
  | case2 c rest hends ih => exact fun d hd => List.mem_cons_of_mem _ (ih h d hd)
  | case3 c rest left _ hends found ih =>
    rcases List.mem_cons.1 h with rfl | h
    · exact fun d hd => List.mem_of_mem_take hd
    · exact fun d hd => List.mem_cons_of_mem _ (List.mem_of_mem_drop (ih h d hd))

theorem Condition.mem_of_mem_values {operand value : String} (h : value ∈ values operand) :
    ∀ c ∈ value.toList, c ∈ operand.toList := by
  intro c hc
  obtain ⟨_, htrimmed, rfl⟩ := List.mem_map.1 h
  obtain ⟨piece, hpiece, rfl⟩ := List.mem_map.1 (List.mem_of_mem_filter htrimmed)
  rw [String.toList_ofList] at hc
  exact mem_of_mem_pieces hpiece c (mem_of_mem_trim hc)

/-- The texts of a construct have only characters of its operands. -/
theorem Slots.exists_mem_of_complete {tag : Tag} {operands : List String} {c : Construct}
    (h : tag.slots.complete operands = some c) {t : String} (ht : t ∈ c.texts) {d : Char}
    (hd : d ∈ t.toList) : ∃ operand ∈ operands, d ∈ operand.toList := by
  cases tag with
  | oneOperator =>
    simp only [Tag.slots, complete_text, complete_done] at h
    obtain ⟨var, _, rfl, op, _, rfl, values, _, rfl, rfl, rfl⟩ := h
    simp only [Construct.texts, List.mem_cons] at ht
    rcases ht with rfl | rfl | ht
    · exact ⟨t, by simp, hd⟩
    · exact ⟨t, by simp, hd⟩
    · exact ⟨values, by simp, Condition.mem_of_mem_values ht d hd⟩
  | twoOperators =>
    simp only [Tag.slots, complete_text, complete_done] at h
    obtain ⟨var, _, rfl, op, _, rfl, value, _, rfl, op', _, rfl, value', _, rfl, rfl, rfl⟩ := h
    simp only [Construct.texts, List.mem_cons, List.not_mem_nil, or_false] at ht
    have hvalue : ∀ operand, t = Condition.value operand → d ∈ operand.toList := by
      rintro operand rfl
      rw [Condition.value, String.toList_ofList] at hd
      exact mem_of_mem_trim hd
    rcases ht with rfl | rfl | ht | rfl | ht
    · exact ⟨t, by simp, hd⟩
    · exact ⟨t, by simp, hd⟩
    · exact ⟨value, by simp, hvalue value ht⟩
    · exact ⟨t, by simp, hd⟩
    · exact ⟨value', by simp, hvalue value' ht⟩
  | _ =>
    simp only [Tag.slots, complete_text, complete_quote, complete_magnitude, complete_shift,
      complete_done] at h
    cases_type* Exists And
    subst_vars
    exact ⟨t, by grind [Construct.texts], hd⟩

/-! ## Lexemes -/

/-- Only line ends and strings can have line feeds. -/
theorem Grammar.rules_lineFeed : ∀ rule ∈ rules,
    (∀ deferred, rule.tag deferred = .newline ∨ rule.tag deferred = .quotedString) ∨
      rule.form.pattern.allows '\n' = false ∧ ∀ deferred, rule.tag deferred ≠ .newline := by
  decide +kernel

theorem Written.lineFeeds_newline {operands : List String} {text : String}
    (h : Written .newline operands text) : operands = [] ∧ lineFeeds text = 1 := by
  cases h <;> exact ⟨rfl, rfl⟩

namespace Lexeme

variable {l : Lexeme} {c : Construct}

theorem mem_text_of_mem_operands {operand : String} (h : operand ∈ l.operands) :
    ∀ d ∈ operand.toList, d ∈ l.text := by
  obtain ⟨segment, hsegment, rfl⟩ := List.mem_map.1 h
  intro d hd
  rw [String.toList_ofList] at hd
  exact List.mem_flatMap.2 ⟨segment, List.mem_of_mem_filter hsegment, hd⟩

/-- A lexeme and its fragment have equally many line feeds. -/
theorem lineFeeds_render (h : l.Genuine) (hc : l.construct? = some c) :
    lineFeeds c.render = l.text.count '\n' := by
  rcases Grammar.rules_lineFeed l.rule h.rule_mem with htag | ⟨hallows, htag⟩
  · rcases htag l.isDeferred with htag | htag
    · have htag : l.tag = .newline := htag
      have hwritten := h.written
      rw [htag] at hwritten
      obtain ⟨hoperands, hone⟩ := hwritten.lineFeeds_newline
      rw [construct?, htag, hoperands] at hc
      obtain rfl := Option.some.inj hc
      rw [← lineFeeds_ofList, hone]
      rfl
    · have htag : l.tag = .quotedString := htag
      have hwritten := h.written
      rw [htag] at hwritten
      obtain ⟨d, hd, hrender⟩ := hwritten.render_eq (by decide) (by simp) (by simp) (by simp)
      rw [construct?, htag, hd] at hc
      rw [← Option.some.inj hc, hrender, lineFeeds_ofList]
  · have hnotMem : '\n' ∉ l.text :=
      Pattern.not_mem_of_matches (Form.matches_of_reads h.reads) hallows
    have htexts : ∀ t ∈ c.texts, lineFeeds t = 0 := by
      intro t ht
      rw [lineFeeds_eq_zero_iff]
      intro hd
      obtain ⟨operand, hoperand, hd⟩ := Slots.exists_mem_of_complete hc ht hd
      exact hnotMem (mem_text_of_mem_operands hoperand _ hd)
    have hne : c ≠ .newline := by
      rintro rfl
      exact htag _ (Slots.fields_of_complete hc).1.symm
    rw [Construct.lineFeeds_render htexts, if_neg hne, List.count_eq_zero.2 hnotMem]

end Lexeme

/-! ## Programs -/

/-- Lexemes and the fragments of their constructs have equally many line feeds. -/
theorem Program.lineFeeds_render {program : Program} {ls : List Lexeme}
    (hgenuine : ∀ l ∈ ls, l.Genuine) (h : program.map some = ls.map Lexeme.construct?) :
    lineFeeds program.render = (ls.flatMap Lexeme.text).count '\n' := by
  induction ls generalizing program with
  | nil =>
    obtain rfl : program = [] := by simpa using h
    rfl
  | cons l ls ih =>
    obtain ⟨c, program, rfl, hc, hrest⟩ := List.map_eq_cons_iff.1 h
    rw [List.forall_mem_cons] at hgenuine
    rw [← List.singleton_append, render_append, lineFeeds_append, ih hgenuine.2 hrest,
      List.flatMap_cons, List.count_append, ← Lexeme.lineFeeds_render hgenuine.1 hc.symm]
    simp [render]

/-- A phrase stands behind the texts of all lexemes before its own. -/
theorem Lexeme.getElem?_phrases (offset : Nat) (ls : List Lexeme) (i : Nat) :
    (phrases offset ls)[i]? =
      ls[i]?.map (phrase (offset + byteSize ((ls.take i).flatMap Lexeme.text))) := by
  induction ls generalizing offset i with
  | nil => rfl
  | cons l ls ih =>
    cases i with
    | zero => rfl
    | succ i =>
      rw [phrases, List.getElem?_cons_succ, List.getElem?_cons_succ, ih, List.take_succ_cons,
        List.flatMap_cons, byteSize_append, Nat.add_assoc]

/-- Each construct has the span of its lexeme. -/
theorem span_of_parse {source : String} {program : List (Located Construct)} {ls : List Lexeme}
    (h : parse false source = .ok program) (hscan : Lexeme.scan source.toList = (ls, [])) :
    program.map Located.span = (Lexeme.phrases 0 ls).map (·.tag.span) := by
  have htokens : tokenize source = .ok (Lexeme.stream 0 ls) :=
    tokenize_eq_ok_iff.2 ⟨ls, hscan, rfl⟩
  obtain ⟨program', hprogram, htags, -⟩ := exists_build_of_tokenize htokens
  obtain rfl : program' = program := by simpa [parse, htokens, parseStream, hprogram] using h
  rw [Lexeme.stream_eq, Stream.phrases_flatMap] at htags
  have hspans := congrArg (List.map Located.span) htags
  simpa only [List.map_map, Function.comp_def] using hspans

/-- The construct with this number stands in the source as the lexeme with this number, between
`start` and `rest`, and the fragments up to it have the rows of the source up to it. -/
structure KeepsRow (source : String) (lexemes : List Lexeme) (program : List (Located Construct))
    (i : Nat) (start text rest : String) : Prop where
  source_eq : source = start ++ text ++ rest
  lexeme_eq : lexemes[i]?.map (String.ofList ·.text) = some text
  span_eq : program[i]?.map Located.span =
    some ⟨start.utf8ByteSize, (start ++ text).utf8ByteSize⟩
  /-- The fragment starts in the row in which the lexeme starts. -/
  row_eq : (({} : Position).after (programOf (program.take i)).render.toList).row =
    (({} : Position).after start.toList).row
  lineFeeds_eq : lineFeeds (programOf (program.take (i + 1))).render = lineFeeds (start ++ text)

theorem keepsRow_of_parse {source : String} {program : List (Located Construct)}
    {ls : List Lexeme} (h : parse false source = .ok program)
    (hscan : Lexeme.scan source.toList = (ls, []))
    (hvalues : (programOf program).map some = ls.map Lexeme.construct?) {i : Nat}
    (hi : i < program.length) :
    ∃ start text rest, KeepsRow source ls program i start text rest := by
  have hlength : program.length = ls.length := by
    simpa [programOf] using congrArg List.length hvalues
  obtain ⟨l, hl⟩ : ∃ l, ls[i]? = some l := ⟨_, List.getElem?_eq_getElem (hlength ▸ hi)⟩
  have hfront : (ls.take (i + 1)).flatMap Lexeme.text =
      (ls.take i).flatMap Lexeme.text ++ l.text := by
    rw [List.take_add_one, hl, List.flatMap_append]
    simp
  have hsource : source.toList = (ls.take i).flatMap Lexeme.text ++ l.text ++
      (ls.drop (i + 1)).flatMap Lexeme.text := by
    rw [← hfront, ← List.flatMap_append, List.take_append_drop, toList_of_scan hscan]
  have hcount : ∀ k, lineFeeds (programOf (program.take k)).render =
      ((ls.take k).flatMap Lexeme.text).count '\n' := by
    intro k
    have hgenuine : ∀ m ∈ ls.take k, m.Genuine :=
      fun m hm => genuine_of_scan hscan m (List.mem_of_mem_take hm)
    refine Program.lineFeeds_render hgenuine ?_
    rw [programOf, List.map_take, List.map_take, ← programOf, hvalues, List.map_take]
  have hspan := congrArg (·[i]?) (span_of_parse h hscan)
  rw [List.getElem?_map, List.getElem?_map, Lexeme.getElem?_phrases, hl, Nat.zero_add] at hspan
  exact ⟨String.ofList ((ls.take i).flatMap Lexeme.text), String.ofList l.text,
    String.ofList ((ls.drop (i + 1)).flatMap Lexeme.text),
    { source_eq := by
        rw [← String.ofList_append, ← String.ofList_append, ← hsource, String.ofList_toList]
      lexeme_eq := by rw [hl, Option.map_some]
      span_eq := by
        rw [hspan, ← String.ofList_append, utf8ByteSize_ofList, utf8ByteSize_ofList,
          byteSize_append]
        rfl
      row_eq := by
        rw [Position.row_after, Position.row_after, String.toList_ofList, ← hcount i, lineFeeds]
      lineFeeds_eq := by rw [hcount, hfront, ← String.ofList_append, lineFeeds_ofList] }⟩

/-- Every construct of a source, read strictly or not, is written in the row in which it stands, and
the output has as many line feeds as the source. -/
theorem rows_of_parse {strict : Bool} {source : String} {program : List (Located Construct)}
    (h : parse strict source = .ok program) :
    (∃ lexemes, Lexeme.scan source.toList = (lexemes, []) ∧ lexemes.length = program.length ∧
      ∀ i < program.length, ∃ start text rest,
        KeepsRow source lexemes program i start text rest) ∧
    ∃ output, compile { strict } source = .ok output ∧ lineFeeds output = lineFeeds source := by
  have hlenient : parse false source = .ok program := by
    cases strict with
    | false => exact h
    | true => exact (parse_strict_eq_ok_iff.1 h).1
  obtain ⟨ls, hscan, hvalues⟩ := scan_of_parse hlenient
  refine ⟨⟨ls, hscan, ?_, fun i hi => keepsRow_of_parse hlenient hscan hvalues hi⟩,
    (programOf program).render, ?_, ?_⟩
  · simpa [programOf] using (congrArg List.length hvalues).symm
  · simp [compile, h, Except.map, generate]
  · rw [Program.lineFeeds_render (genuine_of_scan hscan) hvalues, ← toList_of_scan hscan, lineFeeds]

/-- A line end of two characters is one line feed in the output, and one inside a string is kept. -/
theorem rows_of_parse_template :
    parse true "x\r\n\x60a\nb\x60\ny" = .ok [⟨.varName "x", ⟨0, 1⟩⟩, ⟨.newline, ⟨1, 3⟩⟩,
      ⟨.quotedString .backtick "a\nb", ⟨3, 8⟩⟩, ⟨.newline, ⟨8, 9⟩⟩, ⟨.varName "y", ⟨9, 10⟩⟩] ∧
    ∃ output, compile { strict := true } "x\r\n\x60a\nb\x60\ny" = .ok output ∧
      lineFeeds output = 3 := by
  have h : parse true "x\r\n\x60a\nb\x60\ny" = .ok [⟨.varName "x", ⟨0, 1⟩⟩,
      ⟨.newline, ⟨1, 3⟩⟩, ⟨.quotedString .backtick "a\nb", ⟨3, 8⟩⟩, ⟨.newline, ⟨8, 9⟩⟩,
      ⟨.varName "y", ⟨9, 10⟩⟩] := by decide +kernel
  exact ⟨h, (rows_of_parse h).2⟩

end Jawn
