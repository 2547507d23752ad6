import Jawn.Construct.Slots
import Jawn.Fault

/-!
# Streams of tokens

A stream is well formed if it consists of tags, each with its operands, and one end marker behind
them. `Stream.constructs` reads such a stream and stops where it is not well formed.
-/

namespace Jawn

abbrev Stream := List (Located Token)

namespace Stream

/-- Where and why the reading of a stream stops. -/
structure Stop where
  expected : Expected
  /-- The tag whose operands were being read. -/
  reading : Option (Located Tag)
  /-- The rest of the stream. -/
  rest : Stream
  deriving DecidableEq, Repr

/-- The byte offset where the last token ends. -/
def stop (tokens : Stream) : Nat :=
  match tokens.getLast? with
  | some token => token.span.stop
  | none => 0

/-- Fills the slots of a construct from the front of a stream, and widens its span over the
operands. -/
def fill : Slots → Span → Stream → Except (Expected × Stream) (Located Construct × Stream)
  | .done c, span, tokens => .ok (⟨c, span⟩, tokens)
  | .text next, span, tokens =>
    match tokens with
    | ⟨.operand text, s⟩ :: rest => fill (next text) (span.union s) rest
    | _ => .error (.operand, tokens)
  | .quote next, span, tokens =>
    match tokens with
    | ⟨.operand text, s⟩ :: rest =>
      match Quote.ofString? text with
      | some quote => fill (next quote) (span.union s) rest
      | none => .error (.quote, tokens)
    | _ => .error (.quote, tokens)
  | .magnitude next, span, tokens =>
    match tokens with
    | ⟨.operand text, s⟩ :: rest =>
      match Magnitude.ofString? text with
      | some sign => fill (next sign) (span.union s) rest
      | none => .error (.magnitude, tokens)
    | _ => .error (.magnitude, tokens)
  | .shift next, span, tokens =>
    match tokens with
    | ⟨.operand text, s⟩ :: rest =>
      match Shift.ofString? text with
      | some direction => fill (next direction) (span.union s) rest
      | none => .error (.shift, tokens)
    | _ => .error (.shift, tokens)

theorem length_le_of_fill {slots : Slots} {span : Span} {tokens rest : Stream}
    {c : Located Construct} (h : fill slots span tokens = .ok (c, rest)) :
    rest.length ≤ tokens.length := by
  fun_induction fill slots span tokens <;> simp_all <;> omega

/-- The constructs of a stream. -/
def constructs (tokens : Stream) : Except Stop (List (Located Construct)) :=
  match tokens with
  | [] => .error ⟨.constructTag, none, []⟩
  | ⟨.operand text, span⟩ :: rest =>
    .error ⟨.constructTag, none, ⟨.operand text, span⟩ :: rest⟩
  | ⟨.eof, _⟩ :: rest => if rest.isEmpty then .ok [] else .error ⟨.nothing, none, rest⟩
  | ⟨.tag tag, span⟩ :: rest =>
    match _h : fill tag.slots span rest with
    | .error (expected, rest') => .error ⟨expected, some ⟨tag, span⟩, rest'⟩
    | .ok (c, rest') => (constructs rest').map (c :: ·)
termination_by tokens.length
decreasing_by
  have := length_le_of_fill _h
  simp only [List.length_cons]; omega

/-- The fault of a stop in a stream that ends at a byte offset. Inside a construct, the end
marker counts as the end of the input. -/
def Stop.fault (streamEnd : Nat) (s : Stop) : Fault :=
  let incomplete := match s.reading with
    | some tag => .incompleteConstruct tag streamEnd
    | none => .missingEndMarker streamEnd
  match s.rest with
  | [] => incomplete
  | found :: _ =>
    if found.value = .eof ∧ s.expected ≠ .nothing then incomplete
    else .unexpectedToken s.expected found s.reading

/-- Reads a stream as a program. -/
def build (tokens : Stream) : Except Fault (List (Located Construct)) :=
  (constructs tokens).mapError (Stop.fault tokens.stop)

def display (tokens : Stream) : String :=
  Token.displayAll (tokens.map Located.value)

end Stream

end Jawn
