import Jawn.Proofs.Written

/-!
# Phrases of a stream

A phrase is a tag with the operands behind it. `Stream.phrases` divides a stream at its tags:

* `Stream.phrases_flatMap`: a stream of phrases with an end marker has these phrases;
* `Lexeme.stream_eq`: the tokens of lexemes are such a stream, with one phrase for each lexeme;
* `exists_phrases`: so are the tokens of a source.
-/

namespace Jawn

/-- A tag and the operands that follow it. -/
structure Phrase where
  tag : Located Tag
  operands : List (Located String)
  deriving DecidableEq, Repr

namespace Phrase

def operandToken (operand : Located String) : Located Token :=
  ⟨.operand operand.value, operand.span⟩

def tokens (phrase : Phrase) : Stream :=
  ⟨.tag phrase.tag.value, phrase.tag.span⟩ :: phrase.operands.map operandToken

/-- The texts of the operands. -/
def texts (phrase : Phrase) : List String :=
  phrase.operands.map Located.value

end Phrase

namespace Stream

open Phrase

/-- The operands at the front of a stream. -/
def operandsAhead : Stream → List (Located String)
  | ⟨.operand text, span⟩ :: rest => ⟨text, span⟩ :: operandsAhead rest
  | _ => []

/-- The tags of a stream, each with the operands behind it. -/
def phrases : Stream → List Phrase
  | [] => []
  | ⟨.tag tag, span⟩ :: rest => ⟨⟨tag, span⟩, operandsAhead rest⟩ :: phrases rest
  | _ :: rest => phrases rest

/-- The tags of a stream. -/
def tags : Stream → List (Located Tag)
  | [] => []
  | ⟨.tag tag, span⟩ :: rest => ⟨tag, span⟩ :: tags rest
  | _ :: rest => tags rest

theorem map_tag_phrases (tokens : Stream) : tokens.phrases.map Phrase.tag = tokens.tags := by
  fun_induction phrases tokens with
  | case1 => rfl
  | case2 tag span rest ih => rw [List.map_cons, ih, tags]
  | case3 token rest htag ih =>
    rw [ih]
    obtain ⟨_ | _ | _, span⟩ := token
    · exact absurd rfl (htag _ _)
    · rfl
    · rfl

theorem operandsAhead_append (operands : List (Located String)) (rest : Stream) :
    operandsAhead (operands.map operandToken ++ rest) = operands ++ operandsAhead rest := by
  induction operands with
  | nil => rfl
  | cons operand operands ih =>
    rw [List.map_cons, List.cons_append, operandToken, operandsAhead, ih, List.cons_append]

theorem phrases_operands_append (operands : List (Located String)) (rest : Stream) :
    phrases (operands.map operandToken ++ rest) = phrases rest := by
  induction operands with
  | nil => rfl
  | cons operand operands ih => exact ih

/-- A stream of phrases with an end marker behind them has these phrases. -/
theorem phrases_flatMap (ps : List Phrase) (span : Span) :
    phrases (ps.flatMap Phrase.tokens ++ [⟨.eof, span⟩]) = ps := by
  induction ps with
  | nil => rfl
  | cons p ps ih =>
    -- The operands of `p` end at the tag of the next phrase or at the end marker.
    have hahead : operandsAhead (ps.flatMap Phrase.tokens ++ [⟨.eof, span⟩]) = [] := by
      cases ps <;> rfl
    rw [List.flatMap_cons, List.append_assoc, Phrase.tokens, List.cons_append, phrases,
      operandsAhead_append, hahead, List.append_nil, phrases_operands_append, ih]

end Stream

namespace Lexeme

/-- The operands among segments that start at a byte offset. -/
def locatedOperands : Nat → List Segment → List (Located String)
  | _, [] => []
  | offset, segment :: segments =>
    let stop := offset + byteSize segment.text
    if segment.role = .operand then
      ⟨String.ofList segment.text, ⟨offset, stop⟩⟩ :: locatedOperands stop segments
    else locatedOperands stop segments

/-- The phrase of a lexeme that starts at a byte offset. -/
def phrase (offset : Nat) (l : Lexeme) : Phrase :=
  ⟨⟨l.tag, ⟨offset, offset + byteSize l.text⟩⟩, locatedOperands offset l.segments⟩

/-- The phrases of lexemes that follow each other from a byte offset on. -/
def phrases : Nat → List Lexeme → List Phrase
  | _, [] => []
  | offset, l :: rest => l.phrase offset :: phrases (offset + byteSize l.text) rest

theorem operandTokens_eq (offset : Nat) (segments : List Segment) :
    operandTokens offset segments = (locatedOperands offset segments).map Phrase.operandToken := by
  induction segments generalizing offset with
  | nil => rfl
  | cons segment segments ih =>
    rw [operandTokens, locatedOperands]
    split
    · rw [List.map_cons, ← ih, Phrase.operandToken]
    · exact ih _

theorem texts_phrase (offset : Nat) (l : Lexeme) : (l.phrase offset).texts = l.operands := by
  obtain ⟨rule, segments⟩ := l
  show (locatedOperands offset segments).map Located.value = operands ⟨rule, segments⟩
  induction segments generalizing offset with
  | nil => rfl
  | cons segment segments ih =>
    rw [locatedOperands]
    by_cases hrole : segment.role = .operand
    · simp [operands, hrole, ih]
    · simpa [operands, hrole] using ih _

/-- The tokens of lexemes are their phrases and an end marker where the last one stops. -/
theorem stream_eq (offset : Nat) (ls : List Lexeme) :
    stream offset ls = (phrases offset ls).flatMap Phrase.tokens ++
      [⟨.eof, ⟨offset + byteSize (ls.flatMap Lexeme.text),
        offset + byteSize (ls.flatMap Lexeme.text)⟩⟩] := by
  induction ls generalizing offset with
  | nil => rfl
  | cons l ls ih =>
    have htokens : l.tokens offset = (l.phrase offset).tokens := by
      rw [tokens, operandTokens_eq]
      rfl
    rw [stream, phrases, htokens, ih, List.flatMap_cons, List.flatMap_cons, byteSize_append,
      List.append_assoc, Nat.add_assoc]

end Lexeme

theorem utf8ByteSize_ofList (t : List Char) : (String.ofList t).utf8ByteSize = byteSize t := by
  induction t with
  | nil => rfl
  | cons c t ih =>
    rw [byteSize_cons, ← ih, ← List.singleton_append, String.ofList_append,
      String.utf8ByteSize_append]
    simp

/-- The tokens of a source are the phrases of genuine lexemes that make it up, and an end marker at
its end. -/
theorem exists_phrases {source : String} {tokens : Stream} (h : tokenize source = .ok tokens) :
    ∃ lexemes : List Lexeme, source.toList = lexemes.flatMap Lexeme.text ∧
      (∀ l ∈ lexemes, l.Genuine) ∧ tokens.phrases = Lexeme.phrases 0 lexemes ∧
      tokens = tokens.phrases.flatMap Phrase.tokens ++
        [⟨.eof, ⟨source.utf8ByteSize, source.utf8ByteSize⟩⟩] := by
  obtain ⟨lexemes, htext, hgenuine, rfl⟩ := exists_lexemes h
  have hstream := Lexeme.stream_eq 0 lexemes
  rw [← htext, ← utf8ByteSize_ofList, String.ofList_toList, Nat.zero_add] at hstream
  have hphrases : Stream.phrases (Lexeme.stream 0 lexemes) = Lexeme.phrases 0 lexemes := by
    rw [hstream, Stream.phrases_flatMap]
  exact ⟨lexemes, htext, hgenuine, hphrases, by rw [hphrases, hstream]⟩

end Jawn
