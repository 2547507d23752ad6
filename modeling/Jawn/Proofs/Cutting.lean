import Jawn.Proofs.Phrase
import Jawn.Proofs.Truncation

/-!
# Cutting a source

A scan comes to certain places of a source: where a lexeme starts, and last where it ends or finds
no further lexeme. At each of these the source can be cut in two. The front has the tokens that the
scan has emitted so far, the back those that are still to come, moved to the start:

* `Lexeme.scan_cut`: the lexemes of the front and of the back;
* `Lexeme.stream_append`: the tokens of lexemes in a row, and those behind a given offset;
* `tokenize_cut`: the tokens of the front and of the back.
-/

namespace Jawn

/-- A span moved to the right. -/
def Span.shift (n : Nat) (span : Span) : Span :=
  ⟨span.start + n, span.stop + n⟩

/-- A located value moved to the right. -/
def Located.shift {α : Type} (n : Nat) (x : Located α) : Located α :=
  ⟨x.value, x.span.shift n⟩

theorem Position.offset_after (p : Position) (t : List Char) :
    (p.after t).offset = p.offset + byteSize t := by
  induction t generalizing p with
  | nil => rfl
  | cons c t ih =>
    have hadvance : (p.advance c).offset = p.offset + c.utf8Size := by
      rw [advance]
      split <;> rfl
    rw [after_cons, ih, hadvance, byteSize_cons, Nat.add_assoc]

namespace Lexeme

variable {s left : List Char} {l : Lexeme} {ls before after : List Lexeme}

/-! ## The tokens of lexemes in a row -/

theorem operandTokens_shift (n offset : Nat) (segments : List Segment) :
    operandTokens (offset + n) segments =
      (operandTokens offset segments).map (Located.shift n) := by
  induction segments generalizing offset with
  | nil => rfl
  | cons segment segments ih =>
    have hstop : offset + n + byteSize segment.text = offset + byteSize segment.text + n := by omega
    rw [operandTokens, operandTokens, hstop, ih]
    split
    · rfl
    · rfl

theorem stream_shift (n offset : Nat) (ls : List Lexeme) :
    stream (offset + n) ls = (stream offset ls).map (Located.shift n) := by
  induction ls generalizing offset with
  | nil => rfl
  | cons l ls ih =>
    have hstop : offset + n + byteSize l.text = offset + byteSize l.text + n := by omega
    rw [stream, stream, tokens, tokens, hstop, ih, operandTokens_shift, List.map_append]
    rfl

theorem phrases_append (offset : Nat) (ls ms : List Lexeme) :
    phrases offset (ls ++ ms) =
      phrases offset ls ++ phrases (offset + byteSize (ls.flatMap Lexeme.text)) ms := by
  induction ls generalizing offset with
  | nil => rfl
  | cons l ls ih =>
    rw [List.cons_append, phrases, phrases, ih, List.flatMap_cons, byteSize_append, Nat.add_assoc]
    rfl

theorem stream_append (ls ms : List Lexeme) :
    stream 0 (ls ++ ms) = (phrases 0 ls).flatMap Phrase.tokens ++
      (stream 0 ms).map (Located.shift (byteSize (ls.flatMap Lexeme.text))) := by
  rw [← stream_shift, stream_eq, stream_eq, phrases_append, List.flatMap_append,
    List.append_assoc, List.flatMap_append, byteSize_append]
  simp only [Nat.zero_add]

/-- The tags of genuine lexemes start inside the text of the lexemes. -/
theorem start_of_mem_phrases {offset : Nat} (hgenuine : ∀ l ∈ ls, l.Genuine) {phrase : Phrase}
    (h : phrase ∈ phrases offset ls) : offset ≤ phrase.tag.span.start ∧
      phrase.tag.span.start < offset + byteSize (ls.flatMap Lexeme.text) := by
  induction ls generalizing offset with
  | nil => cases h
  | cons l ls ih =>
    rw [List.forall_mem_cons] at hgenuine
    have hpos : 0 < byteSize l.text := by
      obtain ⟨c, t, ht⟩ := List.exists_cons_of_ne_nil hgenuine.1.text_ne_nil
      have := c.utf8Size_pos
      rw [ht, byteSize_cons]
      omega
    rw [List.flatMap_cons, byteSize_append]
    rcases List.mem_cons.1 h with rfl | h
    · show offset ≤ offset ∧ offset < _
      omega
    · have := ih hgenuine.2 h
      omega

/-! ## The scan of a part -/

theorem exists_of_scan_cons (h : scan s = (l :: ls, left)) :
    next? s = some l ∧ ∃ rest, s = l.text ++ rest ∧ scan rest = (ls, left) := by
  cases hnext : next? s with
  | none =>
    cases s with
    | nil => simp [scan_nil] at h
    | cons c s => simp [scan, hnext] at h
  | some m =>
    obtain ⟨-, rest, hs⟩ := genuine_of_next? hnext
    rw [scan_of_next? hnext hs] at h
    simp only [Prod.mk.injEq, List.cons.injEq] at h
    obtain ⟨⟨rfl, hls⟩, hleft⟩ := h
    exact ⟨rfl, rest, hs, by rw [← hls, ← hleft]⟩

/-- A text that is cut between two lexemes of its scan has the lexemes before the cut in its front
and those behind it in its back. -/
theorem scan_cut (h : scan s = (before ++ after, left)) :
    scan (before.flatMap Lexeme.text) = (before, []) ∧
      scan (after.flatMap Lexeme.text ++ left) = (after, left) := by
  induction before generalizing s with
  | nil =>
    have hs := (scan_eq s).1
    rw [h] at hs
    simp only [List.nil_append] at hs h
    rw [← hs]
    exact ⟨scan_nil, h⟩
  | cons l before ih =>
    rw [List.cons_append] at h
    obtain ⟨hnext, rest, hs, hrest⟩ := exists_of_scan_cons h
    obtain ⟨hfront, hback⟩ := ih hrest
    refine ⟨?_, hback⟩
    have htext := (scan_eq rest).1
    rw [hrest, List.flatMap_append, List.append_assoc] at htext
    rw [hs, htext, ← List.append_assoc] at hnext
    have hcut : next? (l.text ++ before.flatMap Lexeme.text) = some l :=
      next?_of_append hnext (by simp)
    rw [List.flatMap_cons, scan_of_next? hcut rfl, hfront]

end Lexeme

/-! ## The tokens of a part -/

theorem tokenize_eq_ok_iff {source : String} {tokens : Stream} :
    tokenize source = .ok tokens ↔
      ∃ ls, Lexeme.scan source.toList = (ls, []) ∧ tokens = Lexeme.stream 0 ls := by
  rw [tokenize]
  split
  · rename_i ls hscan
    simp [hscan, eq_comm]
  · rename_i ls c rest hscan
    simp [hscan]

theorem tokenize_eq_error_iff {source : String} {fault : Fault} :
    tokenize source = .error fault ↔
      ∃ ls c rest, Lexeme.scan source.toList = (ls, c :: rest) ∧
        fault = .unexpectedCharacter c (({} : Position).after (ls.flatMap Lexeme.text)) := by
  rw [tokenize]
  split
  · rename_i ls hscan
    simp [hscan]
  · rename_i ls c rest hscan
    simp [hscan, eq_comm]

/-- The byte offsets that the scan of a source comes to: where it starts a lexeme, and last where it
ends or stops. -/
def scanOffsets (source : String) : List Nat :=
  let lexemes := (Lexeme.scan source.toList).1
  (Lexeme.placed {} lexemes).map (·.1.offset) ++
    [(({} : Position).after (lexemes.flatMap Lexeme.text)).offset]

/-- The tokens that the scan of a source emits for the lexemes that start before a byte offset. -/
def emittedBefore (source : String) (offset : Nat) : Stream :=
  ((Lexeme.phrases 0 (Lexeme.scan source.toList).1).filter (·.tag.span.start < offset)).flatMap
    Phrase.tokens

/-- Each offset that a scan comes to lies between the lexemes before it and those behind it. -/
theorem Lexeme.exists_of_mem_placed {ls : List Lexeme} {p : Position} {offset : Nat}
    (h : offset ∈ (placed p ls).map (·.1.offset) ++ [(p.after (ls.flatMap Lexeme.text)).offset]) :
    ∃ before after, ls = before ++ after ∧
      offset = p.offset + byteSize (before.flatMap Lexeme.text) := by
  induction ls generalizing p with
  | nil => exact ⟨[], [], rfl, by simpa [placed] using h⟩
  | cons l ls ih =>
    rw [placed, List.map_cons, List.cons_append, List.mem_cons] at h
    rcases h with rfl | h
    · exact ⟨[], l :: ls, rfl, rfl⟩
    · rw [List.flatMap_cons, Position.after_append] at h
      obtain ⟨before, after, rfl, rfl⟩ := ih h
      refine ⟨l :: before, after, rfl, ?_⟩
      rw [Position.offset_after, List.flatMap_cons, byteSize_append, Nat.add_assoc]

theorem emittedBefore_eq {source : String} {before after : List Lexeme} {left : List Char}
    (h : Lexeme.scan source.toList = (before ++ after, left)) :
    emittedBefore source (byteSize (before.flatMap Lexeme.text)) =
      (Lexeme.phrases 0 before).flatMap Phrase.tokens := by
  have hgenuine := (Lexeme.scan_eq source.toList).2
  rw [h, List.forall_mem_append] at hgenuine
  rw [emittedBefore, h, Lexeme.phrases_append, List.filter_append]
  have hbefore : (Lexeme.phrases 0 before).filter
      (·.tag.span.start < byteSize (before.flatMap Lexeme.text)) = Lexeme.phrases 0 before := by
    refine List.filter_eq_self.2 fun phrase hphrase => ?_
    have := (Lexeme.start_of_mem_phrases hgenuine.1 hphrase).2
    simpa using this
  have hafter : (Lexeme.phrases (0 + byteSize (before.flatMap Lexeme.text)) after).filter
      (·.tag.span.start < byteSize (before.flatMap Lexeme.text)) = [] := by
    refine List.filter_eq_nil_iff.2 fun phrase hphrase => ?_
    have := (Lexeme.start_of_mem_phrases hgenuine.2 hphrase).1
    simpa using this
  rw [hbefore, hafter, List.append_nil]

/-- A source can be cut wherever its scan starts a lexeme, ends or stops. The front has the tokens
emitted before the cut. The back has the others, moved to the start, or fails at the character where
the source fails. -/
theorem tokenize_cut {source : String} {offset : Nat} (h : offset ∈ scanOffsets source) :
    ∃ front back, source = front ++ back ∧ front.utf8ByteSize = offset ∧
      tokenize front = .ok (emittedBefore source offset ++ [⟨.eof, ⟨offset, offset⟩⟩]) ∧
      (∀ tokens, tokenize source = .ok tokens → ∃ rest, tokenize back = .ok rest ∧
        tokens = emittedBefore source offset ++ rest.map (Located.shift offset)) ∧
      ∀ fault, tokenize source = .error fault → ∃ c position position',
        fault = .unexpectedCharacter c position ∧
        tokenize back = .error (.unexpectedCharacter c position') ∧
        position.offset = offset + position'.offset := by
  obtain ⟨before, after, hls, rfl⟩ := Lexeme.exists_of_mem_placed h
  obtain ⟨left, hscan⟩ : ∃ left, Lexeme.scan source.toList = (before ++ after, left) :=
    ⟨_, Prod.ext hls rfl⟩
  obtain ⟨hfront, hback⟩ := Lexeme.scan_cut hscan
  simp only [Nat.zero_add]
  refine ⟨String.ofList (before.flatMap Lexeme.text),
    String.ofList (after.flatMap Lexeme.text ++ left), ?_, utf8ByteSize_ofList _, ?_, ?_, ?_⟩
  · have hsource := (Lexeme.scan_eq source.toList).1
    rw [hscan, List.flatMap_append, List.append_assoc] at hsource
    rw [← String.ofList_append, ← hsource, String.ofList_toList]
  · refine tokenize_eq_ok_iff.2 ⟨before, by rw [String.toList_ofList, hfront], ?_⟩
    rw [emittedBefore_eq hscan, Lexeme.stream_eq, Nat.zero_add]
  · intro tokens htokens
    obtain ⟨ls, hscan', rfl⟩ := tokenize_eq_ok_iff.1 htokens
    obtain ⟨rfl, rfl⟩ := Prod.mk.inj (hscan.symm.trans hscan')
    refine ⟨Lexeme.stream 0 after, tokenize_eq_ok_iff.2 ⟨after, ?_, rfl⟩, ?_⟩
    · rw [String.toList_ofList, hback]
    · rw [emittedBefore_eq hscan, Lexeme.stream_append]
  · intro fault hfault
    obtain ⟨ls, c, rest, hscan', rfl⟩ := tokenize_eq_error_iff.1 hfault
    obtain ⟨rfl, rfl⟩ := Prod.mk.inj (hscan.symm.trans hscan')
    refine ⟨c, _, ({} : Position).after (after.flatMap Lexeme.text), rfl,
      tokenize_eq_error_iff.2 ⟨after, c, rest, ?_, rfl⟩, ?_⟩
    · rw [String.toList_ofList, hback]
    · rw [Position.offset_after, Position.offset_after, List.flatMap_append, byteSize_append]
      simp

/-- The scan stops at the question mark, behind a comment with a character of two bytes. -/
theorem tokenize_cut_stop :
    scanOffsets "x\n// é\n?" = [0, 1, 2, 7, 8] ∧
    ∃ front back, "x\n// é\n?" = front ++ back ∧ front.utf8ByteSize = 7 ∧
      tokenize front = .ok [⟨.tag .varName, ⟨0, 1⟩⟩, ⟨.operand "x", ⟨0, 1⟩⟩,
        ⟨.tag .newline, ⟨1, 2⟩⟩, ⟨.tag .comment, ⟨2, 7⟩⟩, ⟨.operand "// é", ⟨2, 7⟩⟩,
        ⟨.eof, ⟨7, 7⟩⟩] ∧
      ∃ position, tokenize back = .error (.unexpectedCharacter '?' position) := by
  have hoffsets : scanOffsets "x\n// é\n?" = [0, 1, 2, 7, 8] := by decide +kernel
  have hemitted : emittedBefore "x\n// é\n?" 7 = [⟨.tag .varName, ⟨0, 1⟩⟩, ⟨.operand "x", ⟨0, 1⟩⟩,
      ⟨.tag .newline, ⟨1, 2⟩⟩, ⟨.tag .comment, ⟨2, 7⟩⟩, ⟨.operand "// é", ⟨2, 7⟩⟩] := by
    decide +kernel
  have hfault : tokenize "x\n// é\n?" = .error (.unexpectedCharacter '?' ⟨8, 3, 1⟩) := by
    decide +kernel
  have hmem : 7 ∈ scanOffsets "x\n// é\n?" := by
    rw [hoffsets]
    decide
  obtain ⟨front, back, hsource, hsize, hfront, -, hback⟩ := tokenize_cut hmem
  rw [hemitted] at hfront
  obtain ⟨c, position, position', hc, hback, -⟩ := hback _ hfault
  obtain ⟨rfl, -⟩ := Fault.unexpectedCharacter.inj hc
  exact ⟨hoffsets, front, back, hsource, hsize, hfront, position', hback⟩

end Jawn
