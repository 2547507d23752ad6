import Jawn.Proofs.Spans

/-!
# Programs from sources

The tokens of a source can always be read as constructs, so only the scan and the check of the
nesting can fail:

* `Stream.build_eq`: phrases whose operands fill the slots of their tags, inside the spans of the
  tags, are read as one construct each;
* `Written.complete`: the operands of a written form fill the slots of its tag;
* `Nesting.code_of_check`: the check of the nesting reports three kinds of faults only;
* `parse_of_tokenize`: how a source is read, strictly or not, in terms of its tokens.
-/

namespace Jawn

/-- The construct that operands make if they fill all slots. -/
def Slots.complete : Slots → List String → Option Construct
  | .done c, [] => some c
  | .text next, t :: ts => (next t).complete ts
  | .quote next, t :: ts => (Quote.ofString? t).bind fun quote => (next quote).complete ts
  | .magnitude next, t :: ts => (Magnitude.ofString? t).bind fun sign => (next sign).complete ts
  | .shift next, t :: ts => (Shift.ofString? t).bind fun direction => (next direction).complete ts
  | _, _ => none

/-- The construct that the operands of a phrase make. -/
def Phrase.construct? (phrase : Phrase) : Option Construct :=
  phrase.tag.value.slots.complete phrase.texts

namespace Stream

/-- A span widened over operands. -/
def widen (span : Span) (operands : List (Located String)) : Span :=
  operands.foldl (fun span operand => span.union operand.span) span

/-- Operands that complete the slots are taken from the stream, and no more tokens. -/
theorem fill_of_complete {slots : Slots} {operands : List (Located String)} {c : Construct}
    (h : slots.complete (operands.map Located.value) = some c) (span : Span) (rest : Stream) :
    fill slots span (operands.map Phrase.operandToken ++ rest) =
      .ok (⟨c, widen span operands⟩, rest) := by
  induction operands generalizing slots span with
  | nil =>
    cases slots with
    | done d =>
      obtain rfl : d = c := by simpa [Slots.complete] using h
      rw [List.map_nil, List.nil_append, fill, widen, List.foldl_nil]
    | _ => simp [Slots.complete] at h
  | cons operand operands ih =>
    rw [List.map_cons] at h
    rw [List.map_cons, List.cons_append, Phrase.operandToken, widen, List.foldl_cons]
    cases slots with
    | done d => simp [Slots.complete] at h
    | text next =>
      rw [fill]
      exact ih h _
    | quote next =>
      obtain ⟨quote, hquote, h⟩ := Option.bind_eq_some_iff.1 h
      simp only [fill, hquote]
      exact ih h _
    | magnitude next =>
      obtain ⟨sign, hsign, h⟩ := Option.bind_eq_some_iff.1 h
      simp only [fill, hsign]
      exact ih h _
    | shift next =>
      obtain ⟨direction, hdirection, h⟩ := Option.bind_eq_some_iff.1 h
      simp only [fill, hdirection]
      exact ih h _

/-- Operands inside a span do not widen it. -/
theorem widen_of_inOrder {span : Span} {start : Nat} {operands : List (Located String)}
    (hstart : span.start ≤ start)
    (h : InOrder start (operands.map Located.span) span.stop) : widen span operands = span := by
  induction operands generalizing start with
  | nil => rfl
  | cons operand operands ih =>
    obtain ⟨hfrom, hto, hrest⟩ := h
    have hunion : span.union operand.span = span := by
      have hstop := hrest.le
      rw [Span.union, Nat.min_eq_left (by omega), Nat.max_eq_left hstop]
    rw [widen, List.foldl_cons, hunion]
    exact ih (by omega) hrest

/-- Phrases whose operands complete their tags, inside the spans of the tags, are read as the
constructs that they make, with the tags and the spans of the phrases. -/
theorem build_eq {tokens : Stream} {span : Span}
    (hphrases : tokens = tokens.phrases.flatMap Phrase.tokens ++ [⟨.eof, span⟩])
    (hcomplete : ∀ phrase ∈ tokens.phrases,
      ∃ c, phrase.construct? = some c ∧ c.tag = phrase.tag.value)
    (hinside : ∀ phrase ∈ tokens.phrases,
      InOrder phrase.tag.span.start (phrase.operands.map Located.span) phrase.tag.span.stop) :
    ∃ program, tokens.build = .ok program ∧
      program.map (fun c => ⟨c.value.tag, c.span⟩) = tokens.phrases.map Phrase.tag ∧
      (programOf program).map some = tokens.phrases.map Phrase.construct? := by
  generalize tokens.phrases = phrases at *
  suffices h : ∃ program, constructs tokens = .ok program ∧
      program.map (fun c => ⟨c.value.tag, c.span⟩) = phrases.map Phrase.tag ∧
      (programOf program).map some = phrases.map Phrase.construct? by
    obtain ⟨program, hprogram, hconstructs⟩ := h
    exact ⟨program, by rw [build, hprogram, Except.mapError], hconstructs⟩
  subst hphrases
  induction phrases with
  | nil => exact ⟨[], by simp [constructs], rfl, rfl⟩
  | cons phrase phrases ih =>
    rw [List.forall_mem_cons] at hcomplete hinside
    obtain ⟨c, hc, htag⟩ := hcomplete.1
    obtain ⟨program, hprogram, htags, hvalues⟩ := ih hcomplete.2 hinside.2
    refine ⟨⟨c, phrase.tag.span⟩ :: program, ?_, by simp [htag, htags],
      by simp [programOf, hc, ← hvalues]⟩
    have hfill := fill_of_complete hc phrase.tag.span
      (phrases.flatMap Phrase.tokens ++ [⟨.eof, span⟩])
    rw [widen_of_inOrder (Nat.le_refl _) hinside.1] at hfill
    rw [List.flatMap_cons, List.append_assoc, Phrase.tokens, List.cons_append, constructs]
    split
    · rename_i hfill'
      rw [hfill] at hfill'
      cases hfill'
    · rename_i hfill'
      rw [hfill] at hfill'
      obtain ⟨rfl, rfl⟩ := Prod.mk.inj (Except.ok.inj hfill')
      rw [hprogram, Except.map]

end Stream

theorem Magnitude.exists_ofString? {sign : String} (h : Lexical.magnitudeSign.Accepts sign) :
    ∃ m, Magnitude.ofString? sign = some m := by
  obtain ⟨t, ht, hsign⟩ := Pattern.matches_anyOf.1 h
  obtain rfl := String.toList_inj.1 hsign
  simp only [List.mem_cons, List.not_mem_nil, or_false] at ht
  rcases ht with rfl | rfl
  · exact ⟨.muchGreater, rfl⟩
  · exact ⟨.muchLess, rfl⟩

theorem Shift.exists_ofString? {direction : String} (h : Lexical.shiftWord.Accepts direction) :
    ∃ s, Shift.ofString? direction = some s := by
  obtain ⟨t, ht, hdirection⟩ := Pattern.matches_anyOf.1 h
  obtain rfl := String.toList_inj.1 hdirection
  simp only [List.mem_cons, List.not_mem_nil, or_false] at ht
  rcases ht with rfl | rfl
  · exact ⟨.left, rfl⟩
  · exact ⟨.right, rfl⟩

/-- The operands of a written form fill the slots of its tag, and the construct has this tag. -/
theorem Written.complete {tag : Tag} {operands : List String} {text : String}
    (h : Written tag operands text) : ∃ c, tag.slots.complete operands = some c ∧ c.tag = tag := by
  cases h with
  | doubleQuoted hbody => exact ⟨.quotedString .double _, rfl, rfl⟩
  | singleQuoted hbody => exact ⟨.quotedString .single _, rfl, rfl⟩
  | template hbody => exact ⟨.quotedString .backtick _, rfl, rfl⟩
  | @magnitudeBy lhs sign factor rhs hlhs hsign hfactor hrhs =>
    obtain ⟨m, hm⟩ := Magnitude.exists_ofString? hsign
    exact ⟨.magnitudeBy lhs m factor rhs, by simp [Tag.slots, Slots.complete, hm], rfl⟩
  | @magnitude lhs sign rhs hlhs hsign hrhs =>
    obtain ⟨m, hm⟩ := Magnitude.exists_ofString? hsign
    exact ⟨.magnitude lhs m rhs, by simp [Tag.slots, Slots.complete, hm], rfl⟩
  | @bitShift lhs direction rhs hlhs hdirection hrhs =>
    obtain ⟨s, hs⟩ := Shift.exists_ofString? hdirection
    exact ⟨.bitShift lhs s rhs, by simp [Tag.slots, Slots.complete, hs], rfl⟩
  | _ => exact ⟨_, rfl, rfl⟩

/-- The tokens of a source are read as the constructs that its phrases make. -/
theorem exists_build_of_tokenize {source : String} {tokens : Stream}
    (h : tokenize source = .ok tokens) :
    ∃ program, tokens.build = .ok program ∧
      program.map (fun c => ⟨c.value.tag, c.span⟩) = tokens.phrases.map Phrase.tag ∧
      (programOf program).map some = tokens.phrases.map Phrase.construct? := by
  obtain ⟨_, -, -, -, htokens⟩ := exists_phrases h
  exact Stream.build_eq htokens (forall_mem_phrases h fun _ _ hl => hl.written.complete)
    (forall_mem_phrases h fun _ _ hl => hl.operands_inOrder)

/-- The tokens of a source are read as one construct for each tag, with the span of the tag. -/
theorem build_of_tokenize {source : String} {tokens : Stream} (h : tokenize source = .ok tokens) :
    ∃ program, tokens.build = .ok program ∧
      program.map (fun c => ⟨c.value.tag, c.span⟩) = tokens.tags := by
  obtain ⟨program, hprogram, htags, -⟩ := exists_build_of_tokenize h
  exact ⟨program, hprogram, by rw [htags, Stream.map_tag_phrases]⟩

theorem code_of_tokenize {source : String} {fault : Fault} (h : tokenize source = .error fault) :
    fault.code = .unexpectedCharacter := by
  rw [tokenize] at h
  split at h
  · cases h
  · obtain rfl := Except.error.inj h
    rfl

/-! ## Faults of the nesting -/

namespace Nesting

variable {n : Nesting} {c : Located Construct} {fault : Fault}

/-- The codes of the faults that a strict run adds. -/
def codes : List Code :=
  [.unbalancedClose, .unclosedConstruct, .orphanCondition]

theorem code_of_close {bracket : Bracket} {span : Span}
    (h : (n.close bracket span).2 = some fault) : fault.code ∈ codes := by
  rw [close] at h
  split at h
  · obtain rfl := Option.some.inj h
    simp [Fault.code, codes]
  · rename_i opener rest hopened
    by_cases hbracket : opener.bracket = bracket
    · simp [hbracket] at h
    · obtain rfl : .mismatchedClose bracket span opener = fault := by simpa [hbracket] using h
      simp [Fault.code, codes]

theorem code_of_follow (h : (n.follow c).2 = some fault) : fault.code ∈ codes := by
  rw [follow] at h
  split at h
  · cases h
  · cases h
  · exact code_of_close h
  · split at h
    · split at h
      · cases h
      · exact code_of_close h
    · obtain rfl := Option.some.inj h
      simp [Fault.code, codes]

theorem code_of_visit (h : (n.visit c).2 = some fault) : fault.code ∈ codes := by
  rw [visit] at h
  split at h
  · cases h
  · exact code_of_follow h

theorem code_of_visitAll {program : List (Located Construct)}
    (h : n.visitAll program = .error fault) : fault.code ∈ codes := by
  induction program generalizing n with
  | nil => cases h
  | cons c program ih =>
    rw [visitAll] at h
    split at h
    · exact ih h
    · rename_i m f hvisit
      obtain rfl := Except.error.inj h
      exact code_of_visit (congrArg Prod.snd hvisit)

theorem code_of_check {program : List (Located Construct)} (h : check program = some fault) :
    fault.code ∈ codes := by
  rw [check] at h
  split at h
  · obtain ⟨opener, -, rfl⟩ := Option.map_eq_some_iff.1 h
    simp [Fault.code, codes]
  · rename_i f hvisit
    obtain rfl := Option.some.inj h
    exact code_of_visitAll hvisit

end Nesting

/-- The tokens of a source can always be read, as one construct for each tag. So a lenient run fails
only where no lexeme starts, and a strict run gives the same program or fails for the nesting. -/
theorem parse_of_tokenize (source : String) :
    (∀ tokens, tokenize source = .ok tokens → ∃ program, tokens.build = .ok program ∧
      program.map (fun c => ⟨c.value.tag, c.span⟩) = tokens.tags) ∧
    (∀ fault, parse false source = .error fault ↔ tokenize source = .error fault) ∧
    (∀ fault, tokenize source = .error fault →
      fault.code = .unexpectedCharacter ∧ parse true source = .error fault) ∧
    (∀ program, parse true source = .ok program → parse false source = .ok program) ∧
    ∀ fault, parse true source = .error fault → tokenize source = .error fault ∨
      (∃ tokens, tokenize source = .ok tokens) ∧
        fault.code ∈ [.unbalancedClose, .unclosedConstruct, .orphanCondition] := by
  refine ⟨fun tokens h => build_of_tokenize h, ?_⟩
  cases htokens : tokenize source with
  | error fault =>
    have hparse : ∀ strict, parse strict source = .error fault := by
      intro strict
      rw [parse, htokens]
    have hcode := code_of_tokenize htokens
    simp [hparse, hcode]
  | ok tokens =>
    obtain ⟨program, hprogram, -⟩ := build_of_tokenize htokens
    have hlenient : parse false source = .ok program := by
      simp [parse, htokens, parseStream, hprogram]
    rw [hlenient]
    cases hcheck : Nesting.check program with
    | none =>
      have hstrict : parse true source = .ok program := by
        simp [parse, htokens, parseStream, hprogram, hcheck]
      simp [hstrict]
    | some fault =>
      have hstrict : parse true source = .error fault := by
        simp [parse, htokens, parseStream, hprogram, hcheck]
      have hcode := Nesting.code_of_check hcheck
      simpa [hstrict, Nesting.codes] using hcode

end Jawn
