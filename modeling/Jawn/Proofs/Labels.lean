import Jawn.Command.Run
import Jawn.Proofs.LineEnds
import Jawn.Proofs.Rows

/-!
# Where diagnostics point

The spans of a source are carried along through the constructs and the check of their nesting, to be
shown in a diagnostic at last. They still are spans of the source then:

* `Nesting.stepWithin_visit`, `Nesting.spans_of_check`: the faults of the nesting show only spans of
  constructs;
* `lexemeAt_of_parse`: these are the spans of the lexemes;
* `characterAt_of_tokenize`: the fault of a scan shows the character where no lexeme starts;
* `diagnostic_of_compile`: a source that cannot be compiled has one diagnostic, and all its labels
  lie in the source.
-/

namespace Jawn

/-- The spans that the diagnostic of a fault shows. -/
def Fault.spans (f : Fault) : List Span :=
  f.diagnostic.labels.map Label.span

theorem Fault.forall_mem_spans {P : Span → Prop} {f : Fault} :
    (∀ span ∈ f.spans, P span) ↔ P f.span ∧ ∀ related ∈ f.related, P related.1 := by
  rw [spans, diagnostic, List.map_cons, List.forall_mem_cons]
  cases f.related <;> simp

/-! ## Spans in the check of the nesting -/

namespace Nesting

/-- All spans that a state holds have a property. -/
structure Remembers (P : Span → Prop) (n : Nesting) : Prop where
  opened : ∀ opener ∈ n.opened, P opener.span
  previous : ∀ tag ∈ n.previous, P tag.span

/-- All spans of a step have a property: those of the state behind it and those of its fault. -/
structure StepWithin (P : Span → Prop) (step : Nesting × Option Fault) : Prop where
  remembers : step.1.Remembers P
  spans : ∀ fault ∈ step.2, ∀ span ∈ fault.spans, P span

variable {P : Span → Prop} {n m : Nesting} {c : Located Construct} {fault : Fault}

theorem remembers_push {bracket : Bracket} (h : n.Remembers P) (hc : P c.span) :
    (n.push bracket c).Remembers P := by
  refine ⟨?_, h.previous⟩
  rw [push, List.forall_mem_cons]
  exact ⟨hc, h.opened⟩

theorem stepWithin_close {bracket : Bracket} {span : Span} (h : n.Remembers P) (hspan : P span) :
    StepWithin P (n.close bracket span) := by
  rw [close]
  split
  · refine ⟨h, ?_⟩
    rintro _ ⟨⟩
    exact Fault.forall_mem_spans.2 ⟨hspan, by rintro _ ⟨⟩⟩
  · rename_i opener rest hopened
    have hopener := h.opened
    rw [hopened, List.forall_mem_cons] at hopener
    refine ⟨⟨hopener.2, h.previous⟩, ?_⟩
    intro fault hfault
    split at hfault
    · cases hfault
    · obtain rfl := Option.some.inj hfault
      refine Fault.forall_mem_spans.2 ⟨hspan, ?_⟩
      rintro _ ⟨⟩
      exact hopener.1

theorem stepWithin_follow (h : n.Remembers P) (hc : P c.span) : StepWithin P (n.follow c) := by
  rw [follow]
  split
  · exact ⟨h, by rintro _ ⟨⟩⟩
  · exact ⟨remembers_push h hc, by rintro _ ⟨⟩⟩
  · exact stepWithin_close h hc
  · have hclose : StepWithin P (n.close .paren c.span) := stepWithin_close h hc
    split
    · split
      · rename_i m hm
        rw [hm] at hclose
        exact ⟨remembers_push hclose.remembers hc, by rintro _ ⟨⟩⟩
      · exact hclose
    · refine ⟨h, ?_⟩
      rintro _ ⟨⟩
      refine Fault.forall_mem_spans.2 ⟨hc, ?_⟩
      have hprevious := h.previous
      cases hn : n.previous with
      | none => rintro _ ⟨⟩
      | some tag =>
        rw [hn] at hprevious
        rintro _ ⟨⟩
        exact hprevious tag rfl

/-- The visit of a construct brings in no span but that of the construct. -/
theorem stepWithin_visit (h : n.Remembers P) (hc : P c.span) : StepWithin P (n.visit c) := by
  have hfollow := stepWithin_follow h hc
  rw [visit]
  split
  · rename_i m hm
    rw [hm] at hfollow
    obtain ⟨hopened, hprevious⟩ := hfollow.remembers
    refine ⟨?_, by rintro _ ⟨⟩⟩
    split
    · exact ⟨hopened, hprevious⟩
    · refine ⟨hopened, ?_⟩
      rintro _ ⟨⟩
      exact hc
  · exact hfollow

variable {program : List (Located Construct)}

theorem remembers_visitAll (h : n.Remembers P) (hprogram : ∀ c ∈ program, P c.span)
    (hvisit : n.visitAll program = .ok m) : m.Remembers P := by
  induction program generalizing n with
  | nil =>
    obtain rfl := Except.ok.inj hvisit
    exact h
  | cons c program ih =>
    rw [List.forall_mem_cons] at hprogram
    rw [visitAll] at hvisit
    split at hvisit
    · rename_i k hc
      have hstep := stepWithin_visit h hprogram.1
      rw [hc] at hstep
      exact ih hstep.remembers hprogram.2 hvisit
    · cases hvisit

theorem spans_of_visitAll (h : n.Remembers P) (hprogram : ∀ c ∈ program, P c.span)
    (hvisit : n.visitAll program = .error fault) : ∀ span ∈ fault.spans, P span := by
  obtain ⟨before, c, after, k, m, rfl, hbefore, hc⟩ := exists_of_visitAll_error hvisit
  rw [List.forall_mem_append, List.forall_mem_cons] at hprogram
  have hstep := stepWithin_visit (remembers_visitAll h hprogram.1 hbefore) hprogram.2.1
  rw [hc] at hstep
  exact hstep.spans _ rfl

/-- The fault of the nesting of a program shows only spans of its constructs. -/
theorem spans_of_check (hprogram : ∀ c ∈ program, P c.span) (h : check program = some fault) :
    ∀ span ∈ fault.spans, P span := by
  have hstart : Remembers P {} := ⟨by simp, by simp⟩
  rw [check] at h
  split at h
  · rename_i n hvisit
    obtain ⟨opener, hopener, rfl⟩ := Option.map_eq_some_iff.1 h
    have hspan := (remembers_visitAll hstart hprogram hvisit).opened _
      (List.mem_of_getLast? hopener)
    exact Fault.forall_mem_spans.2 ⟨hspan, by rintro _ ⟨⟩⟩
  · obtain rfl := Option.some.inj h
    rename_i hvisit
    exact spans_of_visitAll hstart hprogram hvisit

end Nesting

/-! ## Spans of a source -/

/-- A span covers one lexeme: the scan of the source comes to its start and reads a lexeme there,
and the span cuts just that out of the source. -/
def LexemeAt (source : String) (span : Span) : Prop :=
  ∃ before l after, (Lexeme.scan source.toList).1 = before ++ l :: after ∧
    span.start = byteSize (before.flatMap Lexeme.text) ∧
    span.Cuts source (String.ofList l.text)

/-- A span covers one character: the scan of the source stops at its start, and the span cuts the
character out of the source that stands there. -/
def CharacterAt (source : String) (span : Span) : Prop :=
  ∃ before c rest, Lexeme.scan source.toList = (before, c :: rest) ∧
    span.start = byteSize (before.flatMap Lexeme.text) ∧
    span.Cuts source (String.singleton c)

theorem LexemeAt.cuts {source : String} {span : Span} (h : LexemeAt source span) :
    ∃ text, span.Cuts source text := by
  obtain ⟨before, l, after, -, -, hcuts⟩ := h
  exact ⟨_, hcuts⟩

theorem CharacterAt.cuts {source : String} {span : Span} (h : CharacterAt source span) :
    ∃ text, span.Cuts source text := by
  obtain ⟨before, c, rest, -, -, hcuts⟩ := h
  exact ⟨_, hcuts⟩

/-- Every construct of a source has the span of a lexeme. -/
theorem lexemeAt_of_parse {source : String} {program : List (Located Construct)}
    (h : parse false source = .ok program) : ∀ c ∈ program, LexemeAt source c.span := by
  intro c hc
  obtain ⟨ls, hscan, -⟩ := scan_of_parse h
  have hspan : c.span ∈ (Lexeme.phrases 0 ls).map (·.tag.span) := by
    rw [← span_of_parse h hscan]
    exact List.mem_map_of_mem hc
  obtain ⟨phrase, hphrase, hspan⟩ := List.mem_map.1 hspan
  obtain ⟨i, hi⟩ := List.mem_iff_getElem?.1 hphrase
  rw [Lexeme.getElem?_phrases, Nat.zero_add] at hi
  obtain ⟨l, hl, rfl⟩ := Option.map_eq_some_iff.1 hi
  have hls : ls = ls.take i ++ l :: ls.drop (i + 1) := by
    obtain ⟨hlt, rfl⟩ := List.getElem?_eq_some_iff.1 hl
    simp
  have hsource : source.toList = (ls.take i).flatMap Lexeme.text ++ l.text ++
      (ls.drop (i + 1)).flatMap Lexeme.text := by
    rw [toList_of_scan hscan, List.append_assoc, ← List.flatMap_cons, ← List.flatMap_append, ← hls]
  refine ⟨ls.take i, l, ls.drop (i + 1), by rw [hscan]; exact hls, ?_, ?_⟩
  · rw [← hspan]
    rfl
  · rw [← hspan]
    exact cuts_of_append hsource

/-- The fault of a scan shows the character where no lexeme starts. -/
theorem characterAt_of_tokenize {source : String} {fault : Fault}
    (h : tokenize source = .error fault) :
    fault.code = .unexpectedCharacter ∧
      ∃ span, fault.spans = [span] ∧ CharacterAt source span := by
  obtain ⟨ls, c, rest, hscan, rfl⟩ := tokenize_eq_error_iff.1 h
  refine ⟨rfl, _, rfl, ls, c, rest, hscan, ?_, ?_⟩
  · rw [Fault.span, Position.offset_after, Nat.zero_add]
  · have hsource : source.toList = ls.flatMap Lexeme.text ++ [c] ++ rest := by
      have htext := (Lexeme.scan_eq source.toList).1
      rw [hscan] at htext
      simpa using htext
    have hcuts := cuts_of_append hsource
    rw [Fault.span, Position.offset_after, Nat.zero_add]
    simpa using hcuts

/-- A source that cannot be read has a fault in its scan or in its nesting. -/
theorem exists_of_parse_error {strict : Bool} {source : String} {fault : Fault}
    (h : parse strict source = .error fault) :
    tokenize source = .error fault ∨
      ∃ program, parse false source = .ok program ∧ Nesting.check program = some fault := by
  cases htokens : tokenize source with
  | error fault' =>
    left
    simpa [parse, htokens] using h
  | ok tokens =>
    right
    obtain ⟨ls, hscan, -⟩ := tokenize_eq_ok_iff.1 htokens
    obtain ⟨program, hprogram, -⟩ := exists_parse_of_scan hscan
    refine ⟨program, hprogram, ?_⟩
    cases strict with
    | false =>
      rw [hprogram] at h
      cases h
    | true =>
      rw [parse_strict_of_lenient hprogram] at h
      cases hcheck : Nesting.check program with
      | none => simp [hcheck] at h
      | some fault' => simpa [hcheck] using h

/-! ## Diagnostics -/

/-- A diagnostic of a source in which all labels lie. -/
structure Diagnostic.PointsInto (source : String) (d : Diagnostic) : Prop where
  code_mem : d.code ∈ [Code.unexpectedCharacter, .unbalancedClose, .unclosedConstruct,
    .orphanCondition].map some
  /-- The first label marks the fault itself. -/
  primary : ∃ label rest, d.labels = label :: rest ∧ label.isPrimary = true
  ordered : ∀ label ∈ d.labels, label.span.start ≤ label.span.stop ∧
    label.span.start + label.span.length = label.span.stop
  inside : ∀ label ∈ d.labels, label.span.stop ≤ source.utf8ByteSize
  boundary : ∀ label ∈ d.labels,
    Boundary source label.span.start ∧ Boundary source label.span.stop
  /-- The only label of an unexpected character covers this character. -/
  character : d.code = some .unexpectedCharacter →
    ∃ label, d.labels = [label] ∧ CharacterAt source label.span
  /-- The labels of the other faults cover one lexeme each. -/
  lexemes : d.code ≠ some .unexpectedCharacter → ∀ label ∈ d.labels, LexemeAt source label.span

theorem Span.Cuts.ordered {span : Span} {source text : String} (h : span.Cuts source text) :
    span.start ≤ span.stop ∧ span.start + span.length = span.stop ∧
      span.stop ≤ source.utf8ByteSize := by
  obtain ⟨before, after, rfl, hstart, hstop⟩ := h
  rw [String.utf8ByteSize_append] at hstop
  rw [length, String.utf8ByteSize_append, String.utf8ByteSize_append]
  omega

/-- If the spans of a fault cut texts out of the source, its diagnostic lies in the source. -/
theorem Fault.pointsInto {source : String} {fault : Fault}
    (hcode : fault.code ∈ [Code.unexpectedCharacter, .unbalancedClose, .unclosedConstruct,
      .orphanCondition])
    (hcharacter : fault.code = .unexpectedCharacter →
      ∃ span, fault.spans = [span] ∧ CharacterAt source span)
    (hlexemes : fault.code ≠ .unexpectedCharacter → ∀ span ∈ fault.spans, LexemeAt source span) :
    fault.diagnostic.PointsInto source := by
  have hspan : ∀ label ∈ fault.diagnostic.labels, ∃ text, label.span.Cuts source text := by
    intro label hlabel
    have hmem : label.span ∈ fault.spans := List.mem_map_of_mem hlabel
    by_cases h : fault.code = .unexpectedCharacter
    · obtain ⟨span, hspans, hat⟩ := hcharacter h
      rw [hspans, List.mem_singleton] at hmem
      rw [hmem]
      exact hat.cuts
    · exact (hlexemes h _ hmem).cuts
  exact
    { code_mem := List.mem_map_of_mem hcode
      primary := ⟨_, _, rfl, rfl⟩
      ordered := fun label hlabel => by
        obtain ⟨text, hcuts⟩ := hspan label hlabel
        exact ⟨hcuts.ordered.1, hcuts.ordered.2.1⟩
      inside := fun label hlabel => by
        obtain ⟨text, hcuts⟩ := hspan label hlabel
        exact hcuts.ordered.2.2
      boundary := fun label hlabel => by
        obtain ⟨text, hcuts⟩ := hspan label hlabel
        exact hcuts.boundary
      character := fun h => by
        obtain ⟨span, hspans, hat⟩ := hcharacter (Option.some.inj h)
        obtain ⟨label, hlabels, rfl⟩ := List.map_eq_singleton_iff.1 hspans
        exact ⟨label, hlabels, hat⟩
      lexemes := fun h label hlabel =>
        hlexemes (fun hcode => h (congrArg some hcode)) _ (List.mem_map_of_mem hlabel) }

theorem pointsInto_of_parse_error {strict : Bool} {source : String} {fault : Fault}
    (h : parse strict source = .error fault) : fault.diagnostic.PointsInto source := by
  rcases exists_of_parse_error h with h | ⟨program, hprogram, hcheck⟩
  · obtain ⟨hcode, hspans⟩ := characterAt_of_tokenize h
    refine Fault.pointsInto (by simp [hcode]) (fun _ => hspans) ?_
    exact fun hne => absurd hcode hne
  · have hcode := Nesting.code_of_check hcheck
    refine Fault.pointsInto (List.mem_cons_of_mem _ hcode) ?_ ?_
    · intro h
      rw [h] at hcode
      simp [Nesting.codes] at hcode
    · exact fun _ => Nesting.spans_of_check (lexemeAt_of_parse hprogram) hcheck

/-- A source that cannot be compiled fails with one diagnostic, which gives one report, and all its
labels lie in the source. Every run that compiles the source fails so. -/
theorem diagnostic_of_compile {settings : Settings} {source : String} {fault : Fault}
    (h : compile settings source = .error fault) :
    (∃ d, fault.failure source = .source [d] source ∧
      (fault.failure source).reports = [.ofDiagnostic source d] ∧ d.PointsInto source) ∧
    ∀ (o : Options) (reader : ConfigReader) (around : Surroundings), o.stage = none →
      o.settings reader around = .ok settings → o.source around = .ok source →
      (o.result reader around).1 = .error (fault.failure source) := by
  constructor
  · refine ⟨fault.diagnostic, rfl, rfl, ?_⟩
    cases hparse : parse settings.strict source with
    | ok program => simp [compile, hparse, Except.map] at h
    | error fault' =>
      obtain rfl : fault' = fault := by simpa [compile, hparse, Except.map] using h
      exact pointsInto_of_parse_error hparse
  · intro o reader around hstage hsettings hsource
    rw [Options.result, Options.run, hsettings, hsource, hstage]
    show (((Printing.check source (compile settings source)) >>= Printing.print).run.run "").1 = _
    rw [h]
    rfl

/-- A bracket that does not fit, behind a character of two bytes. -/
theorem diagnostic_of_compile_mismatch :
    compile { strict := true } "\"é\"(\x7d" =
      .error (.mismatchedClose .curly ⟨5, 6⟩ ⟨.paren, .openParen, ⟨4, 5⟩⟩) ∧
    ∃ d, (Fault.mismatchedClose .curly ⟨5, 6⟩ ⟨.paren, .openParen, ⟨4, 5⟩⟩).failure "\"é\"(\x7d" =
        .source [d] "\"é\"(\x7d" ∧ d.PointsInto "\"é\"(\x7d" := by
  have h : compile { strict := true } "\"é\"(\x7d" =
      .error (.mismatchedClose .curly ⟨5, 6⟩ ⟨.paren, .openParen, ⟨4, 5⟩⟩) := by decide +kernel
  obtain ⟨d, hfailure, -, hpoints⟩ := (diagnostic_of_compile h).1
  exact ⟨h, d, hfailure, hpoints⟩

end Jawn
