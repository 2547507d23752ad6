import Jawn.Proofs.Lines
import Jawn.Proofs.Places

/-!
# The two line ends

A line can end with a line feed or with a carriage return and a line feed. If a source has no string
between backticks, which could hold a line end, it makes no difference which of them it uses:

* `Grammar.rules_overrun`: no other construct reads a character of a line end;
* `Lexeme.scan_append_of_inline`: so the lexemes of a line do not depend on how it ends;
* `Lexeme.scan_withReturns`: the lexemes of both sources are the same, but for the line ends;
* `Position.after_withReturns`: so are rows and columns;
* `compile_carriageReturns`: the outputs are the same, and faults differ only in their byte offsets.
-/

namespace Jawn

/-- The text with a carriage return before each line feed. -/
def withReturns (text : List Char) : List Char :=
  text.flatMap fun c => if c = '\n' then ['\r', '\n'] else [c]

theorem withReturns_append (t u : List Char) :
    withReturns (t ++ u) = withReturns t ++ withReturns u :=
  List.flatMap_append

theorem withReturns_lineFeed (t : List Char) :
    withReturns ('\n' :: t) = '\r' :: '\n' :: withReturns t :=
  rfl

theorem withReturns_cons_of_ne {c : Char} (h : c ≠ '\n') (t : List Char) :
    withReturns (c :: t) = c :: withReturns t := by
  rw [withReturns, List.flatMap_cons, if_neg h]
  rfl

theorem withReturns_of_notMem {t : List Char} (h : '\n' ∉ t) : withReturns t = t := by
  induction t with
  | nil => rfl
  | cons c t ih =>
    rw [List.mem_cons, not_or] at h
    rw [withReturns_cons_of_ne (Ne.symm h.1), ih h.2]

/-! ## Inside a line -/

namespace Grammar

open Pattern Lexical

/-- Texts that start inside a line and read of its end: they end with a carriage return or have a
line feed in them. -/
def overrun : Pattern :=
  .seq (.one fun c => !(c == '\x60' || isLineEnd c)) (.seq (.many fun _ => true)
    (.alt (.text ['\r']) (.seq (.text ['\n']) (.many fun _ => true))))

theorem overrun_respectsKinds : overrun.RespectsKinds := by
  simp (disch := decide) [overrun, Pattern.RespectsKinds, RespectsKinds, isLineEnd,
    Kind.representative_beq]

theorem rules_overrun : ∀ rule ∈ rules,
    Shape.apart (Shape.ofPattern rule.form.pattern) (Shape.ofPattern overrun) = true := by
  decide +kernel

end Grammar

/-- A text without line ends and backticks. -/
structure Inline (text : List Char) : Prop where
  backtick_notMem : '\x60' ∉ text
  return_notMem : '\r' ∉ text
  lineFeed_notMem : '\n' ∉ text

/-- What can be behind a line: nothing, or its end and more lines. -/
def BehindLine (rest : List Char) : Prop :=
  rest = [] ∨ ∃ more, rest = '\n' :: more ∨ rest = '\r' :: '\n' :: more

theorem Inline.of_append {t u : List Char} (h : Inline (t ++ u)) : Inline t ∧ Inline u := by
  obtain ⟨hbacktick, hreturn, hlf⟩ := h
  rw [List.mem_append, not_or] at hbacktick hreturn hlf
  exact ⟨⟨hbacktick.1, hreturn.1, hlf.1⟩, ⟨hbacktick.2, hreturn.2, hlf.2⟩⟩

/-- No rule that starts inside a line reads of its end. -/
theorem Grammar.not_matches_of_inline {rule : Rule} (hrule : rule ∈ rules)
    {line u more : List Char} (hline : Inline line) (hne : line ≠ []) (hu : u ≠ [])
    (hrest : BehindLine (u ++ more)) : ¬ rule.form.pattern.Matches (line ++ u) := by
  intro h
  refine Shape.not_matches_of_apart (respectsKinds rule hrule) overrun_respectsKinds
    (rules_overrun rule hrule) h ?_
  obtain ⟨c, t, rfl⟩ := List.exists_cons_of_ne_nil hne
  obtain ⟨d, v, rfl⟩ := List.exists_cons_of_ne_nil hu
  have hc : (!(c == '\x60' || Lexical.isLineEnd c)) = true := by
    obtain ⟨hbacktick, hreturn, hlf⟩ := hline
    rw [List.mem_cons, not_or] at hbacktick hreturn hlf
    simp [Lexical.isLineEnd, Ne.symm hbacktick.1, Ne.symm hreturn.1, Ne.symm hlf.1]
  have hany : ∀ a : List Char, (Pattern.many fun _ => true).Matches a := fun a => .many (by simp)
  apply Pattern.Matches.seq (.one hc)
  rcases hrest with hnil | ⟨more', hlf | hcrlf⟩
  · cases hnil
  · obtain ⟨rfl, -⟩ := List.cons.inj hlf
    exact .seq (hany t) (.altRight (.seq (.text _) (hany v)))
  · obtain ⟨rfl, hv⟩ := List.cons.inj hcrlf
    cases v with
    | nil => exact .seq (hany t) (.altLeft (.text _))
    | cons d v =>
      -- The carriage return belongs to the part before the line feed.
      obtain ⟨rfl, -⟩ := List.cons.inj hv
      have h : (Pattern.seq (.many fun _ => true) (.alt (.text ['\r'])
          (.seq (.text ['\n']) (.many fun _ => true)))).Matches ((t ++ ['\r']) ++ '\n' :: v) :=
        .seq (hany _) (.altRight (.seq (.text _) (hany v)))
      simpa using h

namespace Lexeme

variable {line rest : List Char} {l : Lexeme} {ls : List Lexeme}

/-- The first lexeme of a line does not depend on what is behind the line. -/
theorem next?_append_of_inline (hline : Inline line) (hne : line ≠ []) (hrest : BehindLine rest) :
    next? (line ++ rest) = next? line := by
  refine next?_append fun rule hrule => reach_append_le fun u more hu hbehind => ?_
  rw [hbehind] at hrest
  exact Grammar.not_matches_of_inline hrule hline hne hu hrest

theorem scan_of_next?_eq_none {s : List Char} (h : next? s = none) : scan s = ([], s) := by
  cases s with
  | nil => exact scan_nil
  | cons c s => simp [scan, h]

/-- A scan that finds no lexeme has come to the end or to a place where none starts. -/
theorem next?_of_scan_nil {s left : List Char} (h : scan s = ([], left)) :
    next? s = none := by
  cases hnext : next? s with
  | none => rfl
  | some l =>
    obtain ⟨-, rest, hs⟩ := genuine_of_next? hnext
    rw [scan_of_next? hnext hs] at h
    cases h

/-- The lexemes of a line do not depend on what is behind it. If the line can be read to its end,
the scan goes on there, and otherwise it stops where it stops in the line alone. -/
theorem scan_append_of_inline {left : List Char} (hline : Inline line) (hrest : BehindLine rest)
    (h : scan line = (ls, left)) :
    scan (line ++ rest) =
      if left = [] then (ls ++ (scan rest).1, (scan rest).2) else (ls, left ++ rest) := by
  induction ls generalizing line with
  | nil =>
    have hleft := (scan_eq line).1
    rw [h, List.flatMap_nil, List.nil_append] at hleft
    subst hleft
    split
    · rename_i hnil
      rw [hnil]
      rfl
    · rename_i hne
      apply scan_of_next?_eq_none
      rw [next?_append_of_inline hline hne hrest, next?_of_scan_nil h]
  | cons l ls ih =>
    obtain ⟨hnext, after, rfl, hafter⟩ := exists_of_scan_cons h
    have hne : l.text ++ after ≠ [] := by
      have := (genuine_of_next? hnext).1.text_ne_nil
      simp [this]
    have hnext' : next? (l.text ++ after ++ rest) = some l := by
      rw [next?_append_of_inline hline hne hrest, hnext]
    rw [scan_of_next? hnext' (List.append_assoc ..), ih hline.of_append.2 hafter]
    split <;> rfl

/-! ## Whole sources -/

/-- A lexeme where line feeds have carriage returns before them: only a line end is read
differently, and it has no operands. -/
structure Respelled (l l' : Lexeme) : Prop where
  text_eq : l'.text = withReturns l.text
  tag_eq : l'.tag = l.tag
  operands_eq : l'.operands = l.operands

theorem respelled_of_inline (hline : Inline (ls.flatMap Lexeme.text)) :
    List.Forall₂ Respelled ls ls := by
  refine List.forall₂_same.2 fun l hl => ⟨?_, rfl, rfl⟩
  refine (withReturns_of_notMem fun hmem => ?_).symm
  exact hline.lineFeed_notMem (List.mem_flatMap.2 ⟨l, hl, hmem⟩)

/-- Both line ends are lexemes. -/
theorem exists_next?_lineEnd {t : List Char} (ht : t = ['\n'] ∨ t = ['\r', '\n']) :
    ∃ l, next? t = some l ∧ l.text = t ∧ l.tag = .newline ∧ l.operands = [] := by
  have h : (next? t).map (fun l => (l.text, l.tag, l.operands)) = some (t, .newline, []) := by
    rcases ht with rfl | rfl <;> decide +kernel
  obtain ⟨l, hl, heq⟩ := Option.map_eq_some_iff.1 h
  simp only [Prod.mk.injEq] at heq
  exact ⟨l, hl, heq.1, heq.2.1, heq.2.2⟩

/-- A scan goes on behind a line end. -/
theorem exists_scan_lineEnd {t : List Char} (ht : t = ['\n'] ∨ t = ['\r', '\n']) (b : List Char) :
    ∃ l, scan (t ++ b) = (l :: (scan b).1, (scan b).2) ∧ l.text = t ∧ l.tag = .newline ∧
      l.operands = [] := by
  obtain ⟨l, hnext, htext, htag, hoperands⟩ := exists_next?_lineEnd ht
  have hscan : scan t = ([l], []) := by
    rw [scan_of_next? hnext (by rw [htext, List.append_nil]), scan_nil]
  have hline : EndsLine t := by
    rcases ht with rfl | rfl <;> simp [EndsLine]
  exact ⟨l, scan_append hline hscan b, htext, htag, hoperands⟩

/-- The scans of a text with line feeds and of the same text with carriage returns before them. -/
def RespelledScan (a b : List Lexeme × List Char) : Prop :=
  List.Forall₂ Respelled a.1 b.1 ∧ b.2 = withReturns a.2

/-- One line: if it can be read to its end, its line end is read next, and otherwise both scans stop
inside the line. -/
theorem respelledScan_line {line more : List Char} (hline : Inline line)
    (hmore : RespelledScan (scan more) (scan (withReturns more))) :
    RespelledScan (scan (line ++ '\n' :: more))
      (scan (line ++ '\r' :: '\n' :: withReturns more)) := by
  obtain ⟨ls, left, hscan⟩ : ∃ ls left, scan line = (ls, left) := ⟨_, _, rfl⟩
  have htext := (scan_eq line).1
  rw [hscan] at htext
  obtain ⟨hls, hleft⟩ : Inline (ls.flatMap Lexeme.text) ∧ Inline left := by
    rw [htext] at hline
    exact hline.of_append
  have hlf := scan_append_of_inline hline (.inr ⟨more, .inl rfl⟩) hscan
  have hcrlf := scan_append_of_inline hline (.inr ⟨withReturns more, .inr rfl⟩) hscan
  rw [hlf, hcrlf]
  split
  · obtain ⟨l, hl, htext, htag, hoperands⟩ := exists_scan_lineEnd (.inl rfl) more
    obtain ⟨l', hl', htext', htag', hoperands'⟩ :=
      exists_scan_lineEnd (.inr rfl) (withReturns more)
    have hrespelled : Respelled l l' :=
      ⟨by rw [htext, htext']; rfl, by rw [htag, htag'], by rw [hoperands, hoperands']⟩
    rw [List.singleton_append] at hl
    rw [List.cons_append, List.singleton_append] at hl'
    rw [hl, hl']
    exact ⟨List.rel_append (respelled_of_inline hls) (.cons hrespelled hmore.1), hmore.2⟩
  · refine ⟨respelled_of_inline hls, ?_⟩
    rw [withReturns_append, withReturns_of_notMem hleft.lineFeed_notMem, withReturns_lineFeed]

/-- A source without strings between backticks has the same lexemes with both line ends. -/
theorem scan_withReturns {s : List Char} (hreturn : '\r' ∉ s) (hbacktick : '\x60' ∉ s) :
    RespelledScan (scan s) (scan (withReturns s)) := by
  -- The induction is on the length, as it goes on behind the first line.
  induction hn : s.length using Nat.strongRecOn generalizing s with
  | ind n ih =>
    by_cases hlf : '\n' ∈ s
    · obtain ⟨line, more, rfl, hline⟩ := List.eq_append_cons_of_mem hlf
      rw [withReturns_append, withReturns_of_notMem hline, withReturns_lineFeed]
      simp only [List.mem_append, List.mem_cons, not_or] at hreturn hbacktick
      refine respelledScan_line ⟨hbacktick.1, hreturn.1, hline⟩
        (ih more.length ?_ hreturn.2.2 hbacktick.2.2 rfl)
      rw [← hn, List.length_append, List.length_cons]
      omega
    · have htext := (scan_eq s).1
      have hinline : Inline s := ⟨hbacktick, hreturn, hlf⟩
      rw [withReturns_of_notMem hlf]
      rw [htext] at hinline
      obtain ⟨hls, hleft⟩ := hinline.of_append
      exact ⟨respelled_of_inline hls, (withReturns_of_notMem hleft.lineFeed_notMem).symm⟩

end Lexeme

/-! ## Rows and columns -/

/-- A carriage return is counted as a column, but the line feed behind it starts a new row. -/
theorem Position.after_withReturns {p q : Position} (hrow : p.row = q.row)
    (hcolumn : p.column = q.column) (t : List Char) :
    (p.after (withReturns t)).row = (q.after t).row ∧
      (p.after (withReturns t)).column = (q.after t).column := by
  induction t generalizing p q with
  | nil => exact ⟨hrow, hcolumn⟩
  | cons c t ih =>
    by_cases hc : c = '\n'
    · subst hc
      rw [withReturns_lineFeed, after_cons, after_cons, after_cons]
      apply ih
      · simp [advance, hrow]
      · simp [advance]
    · rw [withReturns_cons_of_ne hc, after_cons, after_cons]
      apply ih
      · simp [advance, hc, hrow]
      · simp [advance, hc, hcolumn]

/-! ## Programs -/

/-- The source with a carriage return before each line feed. -/
def carriageReturns (source : String) : String :=
  String.ofList (withReturns source.toList)

/-- A line end is never at fault. -/
theorem Lexeme.ne_lineFeed_of_scan {s rest : List Char} {c : Char} {ls : List Lexeme}
    (h : scan s = (ls, c :: rest)) : c ≠ '\n' := by
  rintro rfl
  have hstop : scan s = (ls ++ [], '\n' :: rest) := by rw [List.append_nil, h]
  have hleft := (scan_cut hstop).2
  obtain ⟨l, hl, -⟩ := exists_scan_lineEnd (.inl rfl) rest
  rw [List.flatMap_nil, List.nil_append, ← List.singleton_append, hl] at hleft
  cases hleft

theorem Lexeme.construct?_of_respelled {ls ms : List Lexeme} (h : List.Forall₂ Respelled ls ms) :
    ms.map construct? = ls.map construct? := by
  induction h with
  | nil => rfl
  | cons hl _ ih => rw [List.map_cons, List.map_cons, ih, construct?, construct?, hl.tag_eq,
      hl.operands_eq]

theorem Lexeme.text_of_respelled {ls ms : List Lexeme} (h : List.Forall₂ Respelled ls ms) :
    ms.flatMap Lexeme.text = withReturns (ls.flatMap Lexeme.text) := by
  induction h with
  | nil => rfl
  | cons hl _ ih =>
    rw [List.flatMap_cons, List.flatMap_cons, withReturns_append, ih, hl.text_eq]

/-- A strict run checks what a lenient run reads. -/
theorem parse_strict_of_lenient {source : String} {program : List (Located Construct)}
    (h : parse false source = .ok program) :
    parse true source = (Nesting.check program).elim (.ok program) .error := by
  cases htokens : tokenize source with
  | error fault => simp [parse, htokens] at h
  | ok tokens =>
    cases hbuild : tokens.build with
    | error fault => simp [parse, htokens, parseStream, hbuild] at h
    | ok program' =>
      obtain rfl : program' = program := by simpa [parse, htokens, parseStream, hbuild] using h
      simp only [parse, htokens, parseStream, hbuild, if_true]
      cases Nesting.check program' <;> rfl

/-- The lexemes of a source with both line ends. -/
theorem exists_scan_carriageReturns {source : String} {ls : List Lexeme} {left : List Char}
    (hreturn : '\r' ∉ source.toList) (hbacktick : '\x60' ∉ source.toList)
    (h : Lexeme.scan source.toList = (ls, left)) :
    ∃ ms, Lexeme.scan (carriageReturns source).toList = (ms, withReturns left) ∧
      List.Forall₂ Lexeme.Respelled ls ms := by
  obtain ⟨hls, hleft⟩ := Lexeme.scan_withReturns hreturn hbacktick
  rw [h] at hls hleft
  refine ⟨_, ?_, hls⟩
  rw [carriageReturns, String.toList_ofList]
  exact Prod.ext rfl hleft

/-- Where the scan of a source stops, it stops with both line ends, in the same row and column. -/
theorem tokenize_carriageReturns_of_error {source : String} {fault : Fault}
    (hreturn : '\r' ∉ source.toList) (hbacktick : '\x60' ∉ source.toList)
    (h : tokenize source = .error fault) :
    ∃ c p offset, fault = .unexpectedCharacter c p ∧
      tokenize (carriageReturns source) = .error (.unexpectedCharacter c { p with offset }) := by
  obtain ⟨ls, c, rest, hscan, rfl⟩ := tokenize_eq_error_iff.1 h
  obtain ⟨ms, hscan', hls⟩ := exists_scan_carriageReturns hreturn hbacktick hscan
  rw [withReturns_cons_of_ne (Lexeme.ne_lineFeed_of_scan hscan)] at hscan'
  let start : Position := {}
  obtain ⟨hrow, hcolumn⟩ : (start.after (ms.flatMap Lexeme.text)).row =
        (start.after (ls.flatMap Lexeme.text)).row ∧
      (start.after (ms.flatMap Lexeme.text)).column =
        (start.after (ls.flatMap Lexeme.text)).column := by
    rw [Lexeme.text_of_respelled hls]
    exact Position.after_withReturns rfl rfl _
  refine ⟨c, _, (start.after (ms.flatMap Lexeme.text)).offset, rfl,
    tokenize_eq_error_iff.2 ⟨ms, c, withReturns rest, hscan', ?_⟩⟩
  rw [← hrow, ← hcolumn]

/-- A lenient run reads the same constructs with both line ends. -/
theorem parse_carriageReturns_of_ok {source : String} {program : List (Located Construct)}
    (hreturn : '\r' ∉ source.toList) (hbacktick : '\x60' ∉ source.toList)
    (h : parse false source = .ok program) :
    ∃ program', parse false (carriageReturns source) = .ok program' ∧
      programOf program' = programOf program := by
  obtain ⟨ls, hscan, hvalues⟩ := scan_of_parse h
  obtain ⟨ms, hscan', hls⟩ := exists_scan_carriageReturns hreturn hbacktick hscan
  obtain ⟨program', hparse, hvalues'⟩ := exists_parse_of_scan hscan'
  refine ⟨program', hparse, (List.map_inj_right fun _ _ => Option.some.inj).1 ?_⟩
  rw [hvalues', hvalues, Lexeme.construct?_of_respelled hls]

/-- With both line ends the same constructs are read, or the same fault is found. -/
theorem parse_carriageReturns {source : String} (hreturn : '\r' ∉ source.toList)
    (hbacktick : '\x60' ∉ source.toList) (strict : Bool) :
    ((parse strict (carriageReturns source)).map programOf).mapError Fault.unplaced =
      ((parse strict source).map programOf).mapError Fault.unplaced := by
  cases htokens : tokenize source with
  | error fault =>
    obtain ⟨c, p, offset, rfl, htokens'⟩ :=
      tokenize_carriageReturns_of_error hreturn hbacktick htokens
    simp only [parse, htokens, htokens']
    rfl
  | ok tokens =>
    obtain ⟨ls, hscan, -⟩ := tokenize_eq_ok_iff.1 htokens
    obtain ⟨program, hparse, -⟩ := exists_parse_of_scan hscan
    obtain ⟨program', hparse', hvalues⟩ :=
      parse_carriageReturns_of_ok hreturn hbacktick hparse
    cases strict with
    | false => rw [hparse, hparse', Except.map, Except.map, hvalues]
    | true =>
      have hcheck := Nesting.unplaced_check_congr hvalues
      rw [parse_strict_of_lenient hparse, parse_strict_of_lenient hparse']
      cases h : Nesting.check program with
      | none =>
        rw [h, Option.map_none, Option.map_eq_none_iff] at hcheck
        simp only [hcheck, Option.elim, Except.map, hvalues]
      | some fault =>
        rw [h, Option.map_some, Option.map_eq_some_iff] at hcheck
        obtain ⟨fault', hfault', hunplaced⟩ := hcheck
        simp only [hfault', Option.elim, Except.map, Except.mapError, hunplaced]

/-- A source without carriage returns and backticks has the same outcome if a carriage return is put
before each line feed: the same output, or a fault with the same wording. A character at fault is
the same one, in the same row and column. -/
theorem compile_carriageReturns {source : String} (hreturn : '\r' ∉ source.toList)
    (hbacktick : '\x60' ∉ source.toList) (settings : Settings) :
    (∀ output, compile settings source = .ok output →
      compile settings (carriageReturns source) = .ok output) ∧
    ∀ fault, compile settings source = .error fault → ∃ fault',
      compile settings (carriageReturns source) = .error fault' ∧
      fault'.code = fault.code ∧ fault'.message = fault.message ∧
      fault'.diagnostic.unplaced = fault.diagnostic.unplaced ∧
      ∀ c p, fault = .unexpectedCharacter c p →
        ∃ offset, fault' = .unexpectedCharacter c { p with offset } := by
  have hparse := parse_carriageReturns hreturn hbacktick settings.strict
  rw [compile, compile]
  cases h : parse settings.strict source with
  | ok program =>
    rw [h] at hparse
    cases h' : parse settings.strict (carriageReturns source) with
    | error fault' =>
      rw [h'] at hparse
      cases hparse
    | ok program' =>
      rw [h'] at hparse
      have hvalues : programOf program' = programOf program := Except.ok.inj hparse
      simp [Except.map, hvalues]
  | error fault =>
    rw [h] at hparse
    cases h' : parse settings.strict (carriageReturns source) with
    | ok program' =>
      rw [h'] at hparse
      cases hparse
    | error fault' =>
      rw [h'] at hparse
      have hunplaced : fault'.unplaced = fault.unplaced := Except.error.inj hparse
      have hwording : fault'.diagnostic.unplaced = fault.diagnostic.unplaced := by
        rw [← Fault.diagnostic_unplaced fault', hunplaced, Fault.diagnostic_unplaced]
      refine ⟨by rintro output ⟨⟩, ?_⟩
      rintro _ ⟨⟩
      refine ⟨fault', rfl, ?_, congrArg Diagnostic.message hwording, hwording, ?_⟩
      · exact Option.some.inj (congrArg Diagnostic.code hwording)
      · rintro c p rfl
        exact Fault.eq_unexpectedCharacter hunplaced

/-- A backslash can take a carriage return with it, but the string still does not go on in the next
line. -/
theorem compile_carriageReturns_escape :
    carriageReturns "x\n\"a\\\n\"" = "x\r\n\"a\\\r\n\"" ∧
    compile {} "x\n\"a\\\n\"" = .error (.unexpectedCharacter '"' ⟨2, 2, 1⟩) ∧
    ∃ offset, compile {} "x\r\n\"a\\\r\n\"" =
      .error (.unexpectedCharacter '"' ⟨offset, 2, 1⟩) := by
  have hreturns : carriageReturns "x\n\"a\\\n\"" = "x\r\n\"a\\\r\n\"" := by decide +kernel
  have hfault : compile {} "x\n\"a\\\n\"" = .error (.unexpectedCharacter '"' ⟨2, 2, 1⟩) := by
    decide +kernel
  have hreturn : '\r' ∉ "x\n\"a\\\n\"".toList := by decide
  have hbacktick : '\x60' ∉ "x\n\"a\\\n\"".toList := by decide
  obtain ⟨fault, hcompile, -, -, -, hcharacter⟩ :=
    (compile_carriageReturns hreturn hbacktick {}).2 _ hfault
  obtain ⟨offset, rfl⟩ := hcharacter _ _ rfl
  rw [hreturns] at hcompile
  exact ⟨hreturns, hfault, offset, hcompile⟩

end Jawn
