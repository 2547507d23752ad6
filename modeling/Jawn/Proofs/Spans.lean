import Jawn.Proofs.Phrase

/-!
# Where tokens stand in a source

The spans of tokens are cuts of the source, in bytes:

* `wellPlaced_of_tokenize`: the tags tile the source, the operands of a tag lie inside it from left
  to right and are what the source has there, and the end marker stands at the end;
* `wellWritten_of_tokenize`: what the source has at a tag is the written form of the tag with its
  operands, so the written forms make up the source.
-/

namespace Jawn

/-- The byte offset of a place between two characters of a source. -/
def Boundary (source : String) (offset : Nat) : Prop :=
  ∃ before after, source = before ++ after ∧ before.utf8ByteSize = offset

/-- Cutting a source at both ends of the span gives this text. -/
def Span.Cuts (span : Span) (source text : String) : Prop :=
  ∃ before after, source = before ++ text ++ after ∧
    before.utf8ByteSize = span.start ∧ (before ++ text).utf8ByteSize = span.stop

/-- Spans that follow each other without a gap and are not empty. -/
def Tile : Nat → List Span → Nat → Prop
  | start, [], stop => start = stop
  | start, span :: spans, stop =>
    span.start = start ∧ span.start < span.stop ∧ Tile span.stop spans stop

/-- Spans that follow each other from left to right inside a range. -/
def InOrder : Nat → List Span → Nat → Prop
  | start, [], stop => start ≤ stop
  | start, span :: spans, stop =>
    start ≤ span.start ∧ span.start ≤ span.stop ∧ InOrder span.stop spans stop

theorem Span.Cuts.boundary {span : Span} {source text : String} (h : span.Cuts source text) :
    Boundary source span.start ∧ Boundary source span.stop := by
  obtain ⟨before, after, rfl, hstart, hstop⟩ := h
  exact ⟨⟨before, text ++ after, String.append_assoc, hstart⟩, ⟨before ++ text, after, rfl, hstop⟩⟩

/-- A cut, said of the characters. -/
theorem cuts_of_append {source : String} {before text after : List Char}
    (h : source.toList = before ++ text ++ after) :
    (Span.mk (byteSize before) (byteSize before + byteSize text)).Cuts source
      (String.ofList text) := by
  refine ⟨String.ofList before, String.ofList after, ?_, utf8ByteSize_ofList before, ?_⟩
  · rw [← String.ofList_append, ← String.ofList_append, ← h, String.ofList_toList]
  · rw [String.utf8ByteSize_append, utf8ByteSize_ofList, utf8ByteSize_ofList]

/-- The characters of a source are enough to find out what a span cuts. -/
theorem Span.cuts_iff {span : Span} {source text : String} :
    span.Cuts source text ↔ ∃ n < source.toList.length + 1,
      byteSize (source.toList.take n) = span.start ∧ text.toList <+: source.toList.drop n ∧
        span.start + byteSize text.toList = span.stop := by
  constructor
  · rintro ⟨before, after, rfl, hstart, hstop⟩
    rw [String.utf8ByteSize_append, hstart] at hstop
    have hsource : (before ++ text ++ after).toList =
        before.toList ++ (text.toList ++ after.toList) := by simp
    rw [hsource, List.length_append]
    refine ⟨before.toList.length, by omega, ?_, ?_, ?_⟩
    · rw [List.take_left, ← utf8ByteSize_ofList, String.ofList_toList, hstart]
    · rw [List.drop_left]
      exact List.prefix_append ..
    · rw [← utf8ByteSize_ofList, String.ofList_toList, hstop]
  · rintro ⟨n, -, hstart, ⟨after, hafter⟩, hstop⟩
    have hsource : source.toList = source.toList.take n ++ text.toList ++ after := by
      rw [List.append_assoc, hafter, List.take_append_drop]
    have hcuts := cuts_of_append hsource
    rwa [String.ofList_toList, hstart, hstop] at hcuts

instance (span : Span) (source text : String) : Decidable (span.Cuts source text) :=
  decidable_of_iff _ Span.cuts_iff.symm

theorem InOrder.mono {start start' stop : Nat} {spans : List Span} (h : InOrder start spans stop)
    (hle : start' ≤ start) : InOrder start' spans stop := by
  cases spans with
  | nil => exact Nat.le_trans hle h
  | cons span spans => exact ⟨Nat.le_trans hle h.1, h.2⟩

theorem InOrder.le {start stop : Nat} {spans : List Span} (h : InOrder start spans stop) :
    start ≤ stop := by
  induction spans generalizing start with
  | nil => exact h
  | cons span spans ih =>
    obtain ⟨hfrom, hto, hrest⟩ := h
    have := ih hrest
    omega

namespace Lexeme

/-- The operands of segments lie from left to right in the range of the segments. -/
theorem locatedOperands_inOrder (offset : Nat) (segments : List Segment) :
    InOrder offset ((locatedOperands offset segments).map Located.span)
      (offset + byteSize (segments.flatMap Segment.text)) := by
  induction segments generalizing offset with
  | nil => exact Nat.le_add_right ..
  | cons segment segments ih =>
    have hrest := ih (offset + byteSize segment.text)
    rw [Nat.add_assoc, ← byteSize_append, ← List.flatMap_cons] at hrest
    rw [locatedOperands]
    split
    · exact ⟨Nat.le_refl _, Nat.le_add_right .., hrest⟩
    · exact hrest.mono (Nat.le_add_right ..)

/-- The operands of segments are what the source has at their spans. -/
theorem locatedOperands_cuts {source : String} {before after : List Char} {segments : List Segment}
    (h : source.toList = before ++ segments.flatMap Segment.text ++ after) :
    ∀ operand ∈ locatedOperands (byteSize before) segments,
      operand.span.Cuts source operand.value := by
  induction segments generalizing before with
  | nil => simp [locatedOperands]
  | cons segment segments ih =>
    have hrest : ∀ operand ∈ locatedOperands (byteSize (before ++ segment.text)) segments,
        operand.span.Cuts source operand.value := ih (by simpa using h)
    rw [byteSize_append] at hrest
    rw [locatedOperands]
    split
    · have hsegment : source.toList =
          before ++ segment.text ++ (segments.flatMap Segment.text ++ after) := by simpa using h
      rw [List.forall_mem_cons]
      exact ⟨cuts_of_append hsegment, hrest⟩
    · exact hrest

theorem phrases_tile {ls : List Lexeme} (h : ∀ l ∈ ls, l.Genuine) (offset : Nat) :
    Tile offset ((phrases offset ls).map (·.tag.span))
      (offset + byteSize (ls.flatMap Lexeme.text)) := by
  induction ls generalizing offset with
  | nil => rfl
  | cons l ls ih =>
    have hrest := ih (fun m hm => h m (by simp [hm])) (offset + byteSize l.text)
    rw [Nat.add_assoc, ← byteSize_append, ← List.flatMap_cons] at hrest
    refine ⟨rfl, ?_, hrest⟩
    obtain ⟨c, t, ht⟩ := List.exists_cons_of_ne_nil (h l (by simp)).text_ne_nil
    have := c.utf8Size_pos
    show offset < offset + byteSize l.text
    rw [ht, byteSize_cons]
    omega

/-- A phrase is that of a genuine lexeme of the source, at the place where it stands. -/
def PlacedIn (source : String) (phrase : Phrase) (l : Lexeme) : Prop :=
  l.Genuine ∧ ∃ before after, source.toList = before ++ l.text ++ after ∧
    phrase = l.phrase (byteSize before)

/-- Each lexeme of a source has its phrase where it stands. -/
theorem phrases_placedIn {source : String} {before : List Char} {ls : List Lexeme}
    (hgenuine : ∀ l ∈ ls, l.Genuine) (h : source.toList = before ++ ls.flatMap Lexeme.text) :
    List.Forall₂ (PlacedIn source) (phrases (byteSize before) ls) ls := by
  induction ls generalizing before with
  | nil => exact .nil
  | cons l ls ih =>
    have hrest : List.Forall₂ (PlacedIn source) (phrases (byteSize (before ++ l.text)) ls) ls :=
      ih (fun m hm => hgenuine m (by simp [hm])) (by simpa using h)
    rw [byteSize_append] at hrest
    have hl : source.toList = before ++ l.text ++ ls.flatMap Lexeme.text := by simpa using h
    exact .cons ⟨hgenuine l (by simp), before, _, hl, rfl⟩ hrest

namespace PlacedIn

variable {source : String} {phrase : Phrase} {l : Lexeme}

theorem cuts (h : PlacedIn source phrase l) :
    phrase.tag.span.Cuts source (String.ofList l.text) := by
  obtain ⟨-, before, after, hsource, rfl⟩ := h
  exact cuts_of_append hsource

theorem operands_cuts (h : PlacedIn source phrase l) :
    ∀ operand ∈ phrase.operands, operand.span.Cuts source operand.value := by
  obtain ⟨-, before, after, hsource, rfl⟩ := h
  exact locatedOperands_cuts hsource

theorem operands_inOrder (h : PlacedIn source phrase l) :
    InOrder phrase.tag.span.start (phrase.operands.map Located.span) phrase.tag.span.stop := by
  obtain ⟨-, before, after, -, rfl⟩ := h
  exact locatedOperands_inOrder (byteSize before) l.segments

theorem written (h : PlacedIn source phrase l) :
    Written phrase.tag.value phrase.texts (String.ofList l.text) := by
  obtain ⟨hgenuine, before, after, -, rfl⟩ := h
  rw [texts_phrase]
  exact hgenuine.written

end PlacedIn

end Lexeme

/-- The phrases of a source are placed where its lexemes stand. -/
theorem exists_placedIn {source : String} {tokens : Stream} (h : tokenize source = .ok tokens) :
    ∃ lexemes : List Lexeme, source = String.join (lexemes.map (String.ofList ·.text)) ∧
      List.Forall₂ (Lexeme.PlacedIn source) tokens.phrases lexemes := by
  obtain ⟨lexemes, htext, hgenuine, hphrases, -⟩ := exists_phrases h
  refine ⟨lexemes, String.toList_inj.1 ?_, ?_⟩
  · rw [htext, String.toList_join, List.flatMap_map]
    simp
  · have hsource : source.toList = [] ++ lexemes.flatMap Lexeme.text := htext
    rw [hphrases]
    exact Lexeme.phrases_placedIn hgenuine hsource

/-- A property of each phrase of a source, shown where its lexeme stands. -/
theorem forall_mem_phrases {source : String} {tokens : Stream} (h : tokenize source = .ok tokens)
    {P : Phrase → Prop} (hP : ∀ phrase l, Lexeme.PlacedIn source phrase l → P phrase) :
    ∀ phrase ∈ tokens.phrases, P phrase := by
  obtain ⟨lexemes, -, hplaced⟩ := exists_placedIn h
  have hboth : List.Forall₂ (fun phrase l => P phrase ∧ Lexeme.PlacedIn source phrase l)
      tokens.phrases lexemes := hplaced.imp fun phrase l hl => ⟨hP phrase l hl, hl⟩
  exact ((List.forall₂_and_left ..).1 hboth).1

/-- Tokens that stand where the source has them. -/
structure WellPlaced (source : String) (tokens : Stream) : Prop where
  /-- The tokens are phrases and one end marker at the end of the source. -/
  eq_phrases : tokens = tokens.phrases.flatMap Phrase.tokens ++
    [⟨.eof, ⟨source.utf8ByteSize, source.utf8ByteSize⟩⟩]
  tags_tile : Tile 0 (tokens.phrases.map (·.tag.span)) source.utf8ByteSize
  boundary : ∀ token ∈ tokens, Boundary source token.span.start ∧ Boundary source token.span.stop
  /-- The operands of a tag lie inside its span, one behind the other. -/
  operands_inOrder : ∀ phrase ∈ tokens.phrases,
    InOrder phrase.tag.span.start (phrase.operands.map Located.span) phrase.tag.span.stop
  operands_cut : ∀ phrase ∈ tokens.phrases, ∀ operand ∈ phrase.operands,
    operand.span.Cuts source operand.value

/-- All tokens start and stop between characters. -/
theorem boundary_of_mem {source : String} {tokens : Stream} (h : tokenize source = .ok tokens) :
    ∀ token ∈ tokens, Boundary source token.span.start ∧ Boundary source token.span.stop := by
  obtain ⟨lexemes, -, -, -, htokens⟩ := exists_phrases h
  have hphrase : ∀ phrase ∈ tokens.phrases, ∀ token ∈ phrase.tokens,
      Boundary source token.span.start ∧ Boundary source token.span.stop := by
    refine forall_mem_phrases h fun phrase l hl => ?_
    rw [Phrase.tokens, List.forall_mem_cons, List.forall_mem_map]
    exact ⟨hl.cuts.boundary, fun operand hoperand => (hl.operands_cuts operand hoperand).boundary⟩
  have hend : Boundary source source.utf8ByteSize := ⟨source, "", by simp, rfl⟩
  intro token htoken
  rw [htokens, List.mem_append, List.mem_flatMap, List.mem_singleton] at htoken
  rcases htoken with ⟨phrase, hmem, htoken⟩ | rfl
  · exact hphrase phrase hmem token htoken
  · exact ⟨hend, hend⟩

theorem wellPlaced_of_tokenize {source : String} {tokens : Stream}
    (h : tokenize source = .ok tokens) : WellPlaced source tokens := by
  obtain ⟨lexemes, htext, hgenuine, hphrases, htokens⟩ := exists_phrases h
  have hsize : byteSize (lexemes.flatMap Lexeme.text) = source.utf8ByteSize := by
    rw [← htext, ← utf8ByteSize_ofList, String.ofList_toList]
  have htile := Lexeme.phrases_tile hgenuine 0
  rw [← hphrases, hsize, Nat.zero_add] at htile
  exact
    { eq_phrases := htokens
      tags_tile := htile
      boundary := boundary_of_mem h
      operands_inOrder := forall_mem_phrases h fun _ _ hl => hl.operands_inOrder
      operands_cut := forall_mem_phrases h fun _ _ hl => hl.operands_cuts }

/-- Spans count bytes: the value of the constant has one character and two bytes. -/
theorem wellPlaced_constant :
    tokenize "jawn x := #é\r\n" = .ok [⟨.tag (.constant true), ⟨0, 13⟩⟩, ⟨.operand "x", ⟨5, 6⟩⟩,
      ⟨.operand "é", ⟨11, 13⟩⟩, ⟨.tag .newline, ⟨13, 15⟩⟩, ⟨.eof, ⟨15, 15⟩⟩] ∧
    WellPlaced "jawn x := #é\r\n" [⟨.tag (.constant true), ⟨0, 13⟩⟩, ⟨.operand "x", ⟨5, 6⟩⟩,
      ⟨.operand "é", ⟨11, 13⟩⟩, ⟨.tag .newline, ⟨13, 15⟩⟩, ⟨.eof, ⟨15, 15⟩⟩] := by
  have h : tokenize "jawn x := #é\r\n" = .ok [⟨.tag (.constant true), ⟨0, 13⟩⟩,
      ⟨.operand "x", ⟨5, 6⟩⟩, ⟨.operand "é", ⟨11, 13⟩⟩, ⟨.tag .newline, ⟨13, 15⟩⟩,
      ⟨.eof, ⟨15, 15⟩⟩] := by decide +kernel
  exact ⟨h, wellPlaced_of_tokenize h⟩

/-- Tokens whose written forms make up the source. -/
structure WellWritten (source : String) (tokens : Stream) : Prop where
  /-- What the source has at each tag is a written form of the tag with its operands. -/
  forms : ∃ texts : List String, source = String.join texts ∧
    List.Forall₂ (fun phrase text => phrase.tag.span.Cuts source text ∧
      Written phrase.tag.value phrase.texts text) tokens.phrases texts
  /-- Apart from the three tags that leave a choice, it is the only one. -/
  only : ∀ phrase ∈ tokens.phrases, phrase.tag.value ∉ [.newline, .space, .twoOperators] →
    ∀ text, Written phrase.tag.value phrase.texts text → phrase.tag.span.Cuts source text

theorem wellWritten_of_tokenize {source : String} {tokens : Stream}
    (h : tokenize source = .ok tokens) : WellWritten source tokens := by
  constructor
  · obtain ⟨lexemes, hsource, hplaced⟩ := exists_placedIn h
    refine ⟨lexemes.map (String.ofList ·.text), hsource, List.forall₂_map_right_iff.2 ?_⟩
    exact hplaced.imp fun phrase l hl => ⟨hl.cuts, hl.written⟩
  · refine forall_mem_phrases h fun phrase l hl hchoice text htext => ?_
    rw [htext.unique hl.written hchoice]
    exact hl.cuts

theorem wellWritten_twoOperators :
    tokenize "x > 1, <= 3) \x7b" = .ok [⟨.tag .twoOperators, ⟨0, 14⟩⟩, ⟨.operand "x", ⟨0, 1⟩⟩,
      ⟨.operand ">", ⟨2, 3⟩⟩, ⟨.operand "1", ⟨4, 5⟩⟩, ⟨.operand "<=", ⟨7, 9⟩⟩,
      ⟨.operand "3", ⟨10, 11⟩⟩, ⟨.eof, ⟨14, 14⟩⟩] ∧
    WellWritten "x > 1, <= 3) \x7b" [⟨.tag .twoOperators, ⟨0, 14⟩⟩, ⟨.operand "x", ⟨0, 1⟩⟩,
      ⟨.operand ">", ⟨2, 3⟩⟩, ⟨.operand "1", ⟨4, 5⟩⟩, ⟨.operand "<=", ⟨7, 9⟩⟩,
      ⟨.operand "3", ⟨10, 11⟩⟩, ⟨.eof, ⟨14, 14⟩⟩] := by
  have h : tokenize "x > 1, <= 3) \x7b" = .ok [⟨.tag .twoOperators, ⟨0, 14⟩⟩,
      ⟨.operand "x", ⟨0, 1⟩⟩, ⟨.operand ">", ⟨2, 3⟩⟩, ⟨.operand "1", ⟨4, 5⟩⟩,
      ⟨.operand "<=", ⟨7, 9⟩⟩, ⟨.operand "3", ⟨10, 11⟩⟩, ⟨.eof, ⟨14, 14⟩⟩] := by decide +kernel
  exact ⟨h, wellWritten_of_tokenize h⟩

end Jawn
