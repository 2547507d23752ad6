import Jawn.Proofs.Balance
import Jawn.Proofs.Building
import Jawn.Proofs.Cutting
import Jawn.Proofs.Lexical
import Jawn.Proofs.Rivals

/-!
# Sources line by line

A lexeme ends at the latest with the line, unless it is a string between backticks, and such a
string is closed by its own quote. So a source can be cut behind any line feed that is not inside
such a string, and the two parts do not know of each other:

* `Grammar.rules_crossing`, `Grammar.template_of_matches`: only strings between backticks go on
  behind a line feed;
* `Lexeme.scan_append`: the lexemes of whole lines with anything behind them;
* `Position.after_line`: rows go on behind whole lines, and columns start anew;
* `append_of_endsLine`: the tokens, the output and the faults of whole lines with anything behind
  them.
-/

namespace Jawn

/-- A text is empty or ends with a line feed. -/
def EndsLine (text : List Char) : Prop :=
  ∀ c ∈ text.getLast?, c = '\n'

theorem EndsLine.of_append {t u : List Char} (h : EndsLine (t ++ u)) : EndsLine u := by
  intro c hc
  refine h c ?_
  rw [List.getLast?_append, Option.mem_def.1 hc, Option.some_or]
  rfl

theorem EndsLine.eq_concat {t : List Char} (h : EndsLine t) (hne : t ≠ []) :
    ∃ u, t = u ++ ['\n'] := by
  obtain ⟨u, c, rfl⟩ := (List.eq_nil_or_concat t).resolve_left hne
  obtain rfl := h c (by simp)
  exact ⟨u, List.concat_eq_append⟩

namespace Grammar

open Pattern

/-- Texts that go on behind a line feed and do not start with a backtick. -/
def crossing : Pattern :=
  .seq (optional (.seq (.one (· != '\x60')) (.many fun _ => true)))
    (.seq (.text ['\n']) (.seq (.one fun _ => true) (.many fun _ => true)))

/-- Texts that start with a backtick. -/
def fenced : Pattern :=
  .seq (.text ['\x60']) (.many fun _ => true)

theorem crossing_respectsKinds : crossing.RespectsKinds := by
  simp (disch := decide) [crossing, Pattern.optional, Pattern.RespectsKinds, RespectsKinds, bne,
    Kind.representative_beq]

theorem fenced_respectsKinds : fenced.RespectsKinds := by
  simp [fenced, Pattern.RespectsKinds, RespectsKinds]

theorem rules_crossing : ∀ rule ∈ rules,
    Shape.apart (Shape.ofPattern rule.form.pattern) (Shape.ofPattern crossing) = true := by
  decide +kernel

theorem rules_fenced : ∀ rule ∈ rules, (∀ deferred, rule.tag deferred = .quotedString) ∨
    Shape.apart (Shape.ofPattern rule.form.pattern) (Shape.ofPattern fenced) = true := by
  decide +kernel

/-- No rule goes on behind a line feed, unless the text starts with a backtick. -/
theorem not_matches_of_endsLine {rule : Rule} (hrule : rule ∈ rules) {t u : List Char}
    (hline : EndsLine t) (ht : t ≠ []) (hstart : t.head? ≠ some '\x60') (hu : u ≠ []) :
    ¬ rule.form.pattern.Matches (t ++ u) := by
  intro h
  refine Shape.not_matches_of_apart (respectsKinds rule hrule) crossing_respectsKinds
    (rules_crossing rule hrule) h ?_
  obtain ⟨line, rfl⟩ := hline.eq_concat ht
  obtain ⟨c, u, rfl⟩ := List.exists_cons_of_ne_nil hu
  have hfirst : (optional (.seq (.one (· != '\x60')) (.many fun _ => true))).Matches line := by
    rw [matches_optional, matches_leading]
    cases line with
    | nil => exact .inr rfl
    | cons d line => exact .inl ⟨d, line, by simpa using hstart, by simp, rfl⟩
  have hlast : (Pattern.seq (.one fun _ => true) (.many fun _ => true)).Matches (c :: u) :=
    matches_leading.2 ⟨c, u, rfl, by simp, rfl⟩
  exact matches_seq.2 ⟨line, _, hfirst, .seq (.text _) hlast, by simp⟩

/-- A text of a rule that starts with a backtick is a string between backticks. -/
theorem template_of_matches {rule : Rule} (hrule : rule ∈ rules) {s : List Char}
    (h : rule.form.pattern.Matches ('\x60' :: s)) :
    ∃ body, Lexical.templateBody.Matches body ∧ s = body ++ ['\x60'] := by
  rcases rules_fenced rule hrule with htag | hapart
  · obtain ⟨deferred, operands, hwritten⟩ := written_of_matches hrule h
    rw [htag] at hwritten
    generalize htext : String.ofList ('\x60' :: s) = text at hwritten
    have hlist : '\x60' :: s = text.toList := by rw [← htext, String.toList_ofList]
    cases hwritten with
    | doubleQuoted hbody => simp at hlist
    | singleQuoted hbody => simp at hlist
    | @template body hbody => exact ⟨body.toList, hbody, by simpa using hlist⟩
  · have hfenced : fenced.Matches (['\x60'] ++ s) := .seq (.text _) (.many (by simp))
    exact absurd hfenced (Shape.not_matches_of_apart (respectsKinds rule hrule)
      fenced_respectsKinds hapart h)

/-- Of two texts of rules that start with the same string between backticks, neither goes on behind
it. -/
theorem eq_nil_of_template {rule rule' : Rule} (hrule : rule ∈ rules) (hrule' : rule' ∈ rules)
    {s u : List Char} (h : rule.form.pattern.Matches ('\x60' :: s))
    (h' : rule'.form.pattern.Matches ('\x60' :: (s ++ u))) : u = [] := by
  obtain ⟨body, hbody, rfl⟩ := template_of_matches hrule h
  obtain ⟨body', hbody', heq⟩ := template_of_matches hrule' h'
  have hends := Lexical.prefers_templateBody (r := u) hbody
  have hends' := Lexical.prefers_templateBody (r := []) hbody'
  have heq' : body ++ '\x60' :: u = body' ++ ['\x60'] := by simpa using heq
  rw [Prefers, heq', hends'] at hends
  simpa using hends

end Grammar

namespace Lexeme

variable {a b : List Char} {l : Lexeme} {ls : List Lexeme}

/-- Where whole lines have a lexeme at their front, no rule reads beyond these lines. -/
theorem reach_le_of_endsLine (hline : EndsLine a) (hnext : next? a = some l) {rule : Rule}
    (hrule : rule ∈ Grammar.rules) : reach (a ++ b) rule ≤ a.length := by
  refine reach_append_le fun u more hne _ hmatches => ?_
  obtain ⟨hl, rest, ha⟩ := genuine_of_next? hnext
  obtain ⟨c, t, ht⟩ := List.exists_cons_of_ne_nil hl.text_ne_nil
  by_cases hc : c = '\x60'
  · -- The lexeme is a string between backticks, and so is what the other rule reads.
    subst hc
    have hl' := Form.matches_of_reads hl.reads
    rw [show l.segments.flatMap Segment.text = l.text from rfl, ht] at hl'
    rw [ha, ht, List.cons_append, List.cons_append, List.append_assoc] at hmatches
    have hnil := Grammar.eq_nil_of_template hl.rule_mem hrule hl' hmatches
    exact hne (List.append_eq_nil_iff.1 hnil).2
  · refine Grammar.not_matches_of_endsLine hrule hline ?_ ?_ hne hmatches
    · simp [ha, ht]
    · simpa [ha, ht] using hc

/-- The lexemes of whole lines with anything behind them are those of the lines and those of what is
behind. -/
theorem scan_append (hline : EndsLine a) (h : scan a = (ls, [])) (b : List Char) :
    scan (a ++ b) = (ls ++ (scan b).1, (scan b).2) := by
  induction ls generalizing a with
  | nil =>
    have ha := (scan_eq a).1
    rw [h] at ha
    obtain rfl : a = [] := by simpa using ha
    rfl
  | cons l ls ih =>
    obtain ⟨hnext, rest, rfl, hrest⟩ := exists_of_scan_cons h
    have hnext' : next? (l.text ++ rest ++ b) = some l := by
      rw [next?_append fun rule hrule => reach_le_of_endsLine hline hnext hrule, hnext]
    rw [scan_of_next? hnext' (List.append_assoc ..), ih hline.of_append hrest]
    rfl

end Lexeme

/-! ## Rows and columns -/

namespace Position

theorem row_after (p : Position) (t : List Char) : (p.after t).row = p.row + t.count '\n' := by
  induction t generalizing p with
  | nil => rfl
  | cons c t ih =>
    rw [after_cons, ih, advance, List.count_cons]
    by_cases hc : c = '\n'
    · simp only [hc, if_true, beq_self_eq_true]
      omega
    · simp [hc]

/-- Behind whole lines a column is counted anew. -/
theorem after_line {t : List Char} (h : EndsLine t) :
    ({} : Position).after t = ⟨byteSize t, t.count '\n' + 1, 1⟩ := by
  have hcolumn : (({} : Position).after t).column = 1 := by
    by_cases ht : t = []
    · rw [ht]
      rfl
    · obtain ⟨u, rfl⟩ := h.eq_concat ht
      rw [after_append]
      rfl
  calc ({} : Position).after t
    _ = ⟨(({} : Position).after t).offset, (({} : Position).after t).row,
          (({} : Position).after t).column⟩ := rfl
    _ = ⟨byteSize t, t.count '\n' + 1, 1⟩ := by
      rw [offset_after, row_after, hcolumn, Nat.zero_add, Nat.add_comm]

/-- Positions behind other lines differ by the bytes and rows of these lines. -/
theorem after_shift (n k : Nat) (p : Position) (t : List Char) :
    (Position.mk (n + p.offset) (k + p.row) p.column).after t =
      ⟨n + (p.after t).offset, k + (p.after t).row, (p.after t).column⟩ := by
  induction t generalizing p with
  | nil => rfl
  | cons c t ih =>
    have hadvance : (Position.mk (n + p.offset) (k + p.row) p.column).advance c =
        ⟨n + (p.advance c).offset, k + (p.advance c).row, (p.advance c).column⟩ := by
      rw [advance, advance]
      split
      · simp only [Nat.add_assoc]
      · simp only [Nat.add_assoc]
    rw [after_cons, after_cons, hadvance, ih]

theorem after_append_line {t : List Char} (h : EndsLine t) (u : List Char) :
    ({} : Position).after (t ++ u) = ⟨byteSize t + (({} : Position).after u).offset,
      t.count '\n' + (({} : Position).after u).row, (({} : Position).after u).column⟩ := by
  rw [after_append, after_line h]
  exact after_shift (byteSize t) (t.count '\n') {} u

end Position

/-! ## Programs -/

/-- The construct that the operands of a lexeme make. -/
def Lexeme.construct? (l : Lexeme) : Option Construct :=
  l.tag.slots.complete l.operands

theorem Lexeme.map_construct?_phrases (offset : Nat) (ls : List Lexeme) :
    (phrases offset ls).map Phrase.construct? = ls.map construct? := by
  induction ls generalizing offset with
  | nil => rfl
  | cons l ls ih =>
    have hl : (l.phrase offset).construct? = l.construct? := by
      rw [Phrase.construct?, texts_phrase]
      rfl
    rw [phrases, List.map_cons, List.map_cons, hl, ih]

theorem genuine_of_scan {source : String} {ls : List Lexeme}
    (h : Lexeme.scan source.toList = (ls, [])) : ∀ l ∈ ls, l.Genuine := by
  simpa only [h] using (Lexeme.scan_eq source.toList).2

/-- A lenient run reads the lexemes of a source as the constructs that they make. -/
theorem exists_parse_of_scan {source : String} {ls : List Lexeme}
    (h : Lexeme.scan source.toList = (ls, [])) :
    ∃ program, parse false source = .ok program ∧
      (programOf program).map some = ls.map Lexeme.construct? := by
  have htokens : tokenize source = .ok (Lexeme.stream 0 ls) := tokenize_eq_ok_iff.2 ⟨ls, h, rfl⟩
  obtain ⟨program, hprogram, -, hvalues⟩ := exists_build_of_tokenize htokens
  refine ⟨program, by simp [parse, htokens, parseStream, hprogram], ?_⟩
  rw [hvalues, Lexeme.stream_eq, Stream.phrases_flatMap, Lexeme.map_construct?_phrases]

theorem scan_of_parse {source : String} {program : List (Located Construct)}
    (h : parse false source = .ok program) :
    ∃ ls, Lexeme.scan source.toList = (ls, []) ∧
      (programOf program).map some = ls.map Lexeme.construct? := by
  cases htokens : tokenize source with
  | error fault => simp [parse, htokens] at h
  | ok tokens =>
    obtain ⟨ls, hscan, -⟩ := tokenize_eq_ok_iff.1 htokens
    obtain ⟨program', hparse, hvalues⟩ := exists_parse_of_scan hscan
    obtain rfl := Except.ok.inj (hparse.symm.trans h)
    exact ⟨ls, hscan, hvalues⟩

/-- A strict run reads the same as a lenient one, if the check finds no fault. -/
theorem parse_strict_eq_ok_iff {source : String} {program : List (Located Construct)} :
    parse true source = .ok program ↔
      parse false source = .ok program ∧ Nesting.check program = none := by
  rw [parse, parse]
  cases tokenize source with
  | error fault => simp
  | ok tokens =>
    simp only [parseStream]
    cases tokens.build with
    | error fault => simp
    | ok program' =>
      cases hcheck : Nesting.check program' with
      | none =>
        simp only [hcheck, if_true, Bool.false_eq_true, if_false, Except.ok.injEq, iff_self_and]
        rintro rfl
        exact hcheck
      | some fault =>
        simp only [hcheck, if_true, Bool.false_eq_true, if_false, Except.ok.injEq, reduceCtorEq,
          false_iff, not_and]
        rintro rfl
        simp [hcheck]

theorem parse_lenient_of_parse {strict : Bool} {source : String}
    {program : List (Located Construct)} (h : parse strict source = .ok program) :
    parse false source = .ok program := by
  cases strict with
  | false => exact h
  | true => exact (parse_strict_eq_ok_iff.1 h).1

theorem compile_eq_ok_of_parse {source : String} {program : List (Located Construct)}
    (h : parse false source = .ok program) :
    compile {} source = .ok (programOf program).render := by
  simp [compile, h, Except.map, generate]

theorem Program.render_append (p q : Program) : render (p ++ q) = render p ++ render q := by
  simp [render, String.join_append]

section

variable {a b : String} {ls : List Lexeme}

theorem scan_toList_append (hline : EndsLine a.toList) (h : Lexeme.scan a.toList = (ls, [])) :
    Lexeme.scan (a ++ b).toList =
      (ls ++ (Lexeme.scan b.toList).1, (Lexeme.scan b.toList).2) := by
  rw [String.toList_append, Lexeme.scan_append hline h]

theorem toList_of_scan (h : Lexeme.scan a.toList = (ls, [])) :
    a.toList = ls.flatMap Lexeme.text := by
  simpa [h] using (Lexeme.scan_eq a.toList).1

theorem utf8ByteSize_eq (a : String) : a.utf8ByteSize = byteSize a.toList := by
  rw [← utf8ByteSize_ofList, String.ofList_toList]

/-- The tokens of a text with another one behind it, if the lexemes of both stay as they are. -/
theorem tokenize_append_of_scan {rest : Stream} (ha : a.toList = ls.flatMap Lexeme.text)
    (hscan : Lexeme.scan (a ++ b).toList =
      (ls ++ (Lexeme.scan b.toList).1, (Lexeme.scan b.toList).2)) (hb : tokenize b = .ok rest) :
    tokenize (a ++ b) =
      .ok ((Lexeme.stream 0 ls).dropLast ++ rest.map (Located.shift a.utf8ByteSize)) := by
  obtain ⟨ms, hms, rfl⟩ := tokenize_eq_ok_iff.1 hb
  refine tokenize_eq_ok_iff.2 ⟨ls ++ ms, ?_, ?_⟩
  · rw [hscan, hms]
  · rw [Lexeme.stream_append, Lexeme.stream_eq, List.dropLast_concat, utf8ByteSize_eq, ha]

/-- The character at fault in a text behind another one, if the lexemes of both stay as they are. -/
theorem tokenize_append_of_scan_error {fault : Fault} (ha : a.toList = ls.flatMap Lexeme.text)
    (hscan : Lexeme.scan (a ++ b).toList =
      (ls ++ (Lexeme.scan b.toList).1, (Lexeme.scan b.toList).2))
    (hb : tokenize b = .error fault) :
    ∃ c t, fault = .unexpectedCharacter c (({} : Position).after t) ∧
      tokenize (a ++ b) =
        .error (.unexpectedCharacter c (({} : Position).after (a.toList ++ t))) := by
  obtain ⟨ms, c, rest, hms, rfl⟩ := tokenize_eq_error_iff.1 hb
  refine ⟨c, _, rfl, tokenize_eq_error_iff.2 ⟨ls ++ ms, c, rest, ?_, ?_⟩⟩
  · rw [hscan, hms]
  · rw [List.flatMap_append, ha]

/-- The tokens of whole lines with other tokens behind them. -/
theorem tokenize_append_of_ok {tokens rest : Stream} (hline : EndsLine a.toList)
    (ha : tokenize a = .ok tokens) (hb : tokenize b = .ok rest) :
    tokenize (a ++ b) = .ok (tokens.dropLast ++ rest.map (Located.shift a.utf8ByteSize)) := by
  obtain ⟨ls, hls, rfl⟩ := tokenize_eq_ok_iff.1 ha
  exact tokenize_append_of_scan (toList_of_scan hls) (scan_toList_append hline hls) hb

/-- The fault of a text behind whole lines. -/
theorem tokenize_append_of_error {tokens : Stream} {fault : Fault} (hline : EndsLine a.toList)
    (ha : tokenize a = .ok tokens) (hb : tokenize b = .error fault) :
    ∃ c p, fault = .unexpectedCharacter c p ∧
      tokenize (a ++ b) = .error (.unexpectedCharacter c
        ⟨a.utf8ByteSize + p.offset, a.toList.count '\n' + p.row, p.column⟩) := by
  obtain ⟨ls, hls, rfl⟩ := tokenize_eq_ok_iff.1 ha
  obtain ⟨c, t, rfl, hall⟩ :=
    tokenize_append_of_scan_error (toList_of_scan hls) (scan_toList_append hline hls) hb
  rw [Position.after_append_line hline, ← utf8ByteSize_eq] at hall
  exact ⟨c, _, rfl, hall⟩

/-- The constructs of whole lines with others behind them. -/
theorem parse_append {program program' : List (Located Construct)} (hline : EndsLine a.toList)
    (ha : parse false a = .ok program) (hb : parse false b = .ok program') :
    ∃ all, parse false (a ++ b) = .ok all ∧
      programOf all = programOf program ++ programOf program' := by
  obtain ⟨ls, hls, hvalues⟩ := scan_of_parse ha
  obtain ⟨ms, hms, hvalues'⟩ := scan_of_parse hb
  have hscan : Lexeme.scan (a ++ b).toList = (ls ++ ms, []) := by
    rw [scan_toList_append hline hls, hms]
  obtain ⟨all, hall, hvalues''⟩ := exists_parse_of_scan hscan
  refine ⟨all, hall, (List.map_inj_right fun _ _ => Option.some.inj).1 ?_⟩
  rw [hvalues'', List.map_append, List.map_append, hvalues, hvalues']

/-- Balanced lines with balanced text behind them are balanced. -/
theorem check_append {program program' all : List (Located Construct)}
    (hall : programOf all = programOf program ++ programOf program')
    (h : Nesting.check program = none) (h' : Nesting.check program' = none) :
    Nesting.check all = none := by
  obtain ⟨hbalanced, hstarted⟩ := Nesting.balanced_of_check h
  obtain ⟨hbalanced', hstarted'⟩ := Nesting.balanced_of_check h'
  refine Nesting.check_of_balanced ?_ ?_
  · rw [hall, Program.edges_append]
    exact hbalanced.append hbalanced'
  · rw [hall]
    exact hstarted.append hstarted'

end

/-- A source that is empty or ends with a line feed and can be scanned does not depend on what is
put behind it. The tokens behind it are moved to the right; the outputs of lenient runs are put
together; if a strict run accepts both parts, it accepts the whole; and a character at fault stays in
its column, while its row and its span are moved behind the source. -/
theorem append_of_endsLine {a b : String} {tokens : Stream} (hline : EndsLine a.toList)
    (h : tokenize a = .ok tokens) :
    ((∃ all, tokenize (a ++ b) = .ok all) ↔ ∃ rest, tokenize b = .ok rest) ∧
    (∀ rest, tokenize b = .ok rest →
      tokenize (a ++ b) = .ok (tokens.dropLast ++ rest.map (Located.shift a.utf8ByteSize))) ∧
    (∃ output, compile {} a = .ok output ∧ ∀ rest, tokenize b = .ok rest → ∃ output',
      compile {} b = .ok output' ∧ compile {} (a ++ b) = .ok (output ++ output')) ∧
    (∀ program program', parse true a = .ok program → parse true b = .ok program' →
      ∃ all, parse true (a ++ b) = .ok all) ∧
    ∀ fault, tokenize b = .error fault → ∃ c p fault', fault = .unexpectedCharacter c p ∧
      tokenize (a ++ b) = .error fault' ∧
      fault' = .unexpectedCharacter c
        ⟨a.utf8ByteSize + p.offset, a.toList.count '\n' + p.row, p.column⟩ ∧
      fault'.span = fault.span.shift a.utf8ByteSize := by
  refine ⟨⟨?front, ?back⟩, fun rest => tokenize_append_of_ok hline h, ?output, ?strict, ?fault⟩
  case front =>
    rintro ⟨all, hall⟩
    cases hb : tokenize b with
    | ok rest => exact ⟨rest, rfl⟩
    | error fault =>
      obtain ⟨c, p, -, hfault⟩ := tokenize_append_of_error hline h hb
      rw [hall] at hfault
      cases hfault
  case back =>
    rintro ⟨rest, hb⟩
    exact ⟨_, tokenize_append_of_ok hline h hb⟩
  case output =>
    obtain ⟨ls, hls, -⟩ := tokenize_eq_ok_iff.1 h
    obtain ⟨program, hprogram, -⟩ := exists_parse_of_scan hls
    refine ⟨_, compile_eq_ok_of_parse hprogram, fun rest hb => ?_⟩
    obtain ⟨ms, hms, -⟩ := tokenize_eq_ok_iff.1 hb
    obtain ⟨program', hprogram', -⟩ := exists_parse_of_scan hms
    obtain ⟨all, hall, hvalues⟩ := parse_append hline hprogram hprogram'
    refine ⟨_, compile_eq_ok_of_parse hprogram', ?_⟩
    rw [compile_eq_ok_of_parse hall, hvalues, Program.render_append]
  case strict =>
    intro program program' ha hb
    rw [parse_strict_eq_ok_iff] at ha hb
    obtain ⟨all, hall, hvalues⟩ := parse_append hline ha.1 hb.1
    exact ⟨all, parse_strict_eq_ok_iff.2 ⟨hall, check_append hvalues ha.2 hb.2⟩⟩
  case fault =>
    intro fault hb
    obtain ⟨c, p, rfl, hall⟩ := tokenize_append_of_error hline h hb
    refine ⟨c, p, _, rfl, hall, rfl, ?_⟩
    rw [Fault.span, Fault.span, Span.shift, Nat.add_comm, Nat.add_right_comm]

/-- The question mark is at fault in the third row, behind a string that goes on behind a line feed
and has a character of two bytes. -/
theorem append_of_endsLine_template :
    EndsLine "\x60é\n\x60\n".toList ∧
    tokenize "x ?" = .error (.unexpectedCharacter '?' ⟨2, 1, 3⟩) ∧
    tokenize ("\x60é\n\x60\n" ++ "x ?") = .error (.unexpectedCharacter '?' ⟨8, 3, 3⟩) := by
  have hline : EndsLine "\x60é\n\x60\n".toList := by
    intro c hc
    simpa using hc.symm
  have htokens : tokenize "\x60é\n\x60\n" = .ok [⟨.tag .quotedString, ⟨0, 5⟩⟩,
      ⟨.operand "\x60", ⟨0, 1⟩⟩, ⟨.operand "é\n", ⟨1, 4⟩⟩, ⟨.tag .newline, ⟨5, 6⟩⟩,
      ⟨.eof, ⟨6, 6⟩⟩] := by
    decide +kernel
  have hfault : tokenize "x ?" = .error (.unexpectedCharacter '?' ⟨2, 1, 3⟩) := by
    decide +kernel
  obtain ⟨-, -, -, -, hbehind⟩ := append_of_endsLine hline htokens
  obtain ⟨c, p, fault, hc, hall, rfl, -⟩ := hbehind _ hfault
  obtain ⟨rfl, rfl⟩ := Fault.unexpectedCharacter.inj hc
  exact ⟨hline, hfault, hall⟩

end Jawn
