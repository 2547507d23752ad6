import Jawn.Grammar
import Jawn.Text.Position
import Jawn.Token

/-!
# Lexemes

A source is cut into lexemes from left to right. Each lexeme is the longest text that some rule
reads at its place; of rules that read equally long texts, the first one counts. A scan ends at
the end of the text or at a character where no lexeme starts.
-/

namespace Jawn

/-- A piece of source as a rule read it. -/
structure Lexeme where
  rule : Rule
  segments : List Segment

namespace Lexeme

def text (l : Lexeme) : List Char :=
  l.segments.flatMap Segment.text

/-- A lexeme is deferred if its marker is not empty. -/
def isDeferred (l : Lexeme) : Bool :=
  l.segments.any fun segment => segment.role == .marker && !segment.text.isEmpty

def tag (l : Lexeme) : Tag :=
  l.rule.tag l.isDeferred

/-- What a rule reads at the front of a text, unless that is empty. -/
def ofRule? (s : List Char) (rule : Rule) : Option Lexeme :=
  (Form.read rule.form s).bind fun segments =>
    if (segments.flatMap Segment.text).isEmpty then none else some ⟨rule, segments⟩

/-- The first of the longest lexemes. -/
def firstLongest : List Lexeme → Option Lexeme
  | [] => none
  | l :: rest =>
    match firstLongest rest with
    | none => some l
    | some m => if l.text.length < m.text.length then some m else some l

/-- The lexeme at the front of a text. -/
def next? (s : List Char) : Option Lexeme :=
  firstLongest (Grammar.rules.filterMap (ofRule? s))

/-- The lexemes of a text and what is left of it where no further one starts. -/
def scan (s : List Char) : List Lexeme × List Char :=
  match s with
  | [] => ([], [])
  | c :: rest =>
    match next? (c :: rest) with
    | none => ([], c :: rest)
    | some l =>
      let (lexemes, left) := scan (rest.drop (l.text.length - 1))
      (l :: lexemes, left)
termination_by s.length
decreasing_by simp only [List.length_drop, List.length_cons]; omega

/-- The operands among segments that start at a byte offset. -/
def operandTokens : Nat → List Segment → List (Located Token)
  | _, [] => []
  | offset, segment :: segments =>
    let stop := offset + byteSize segment.text
    if segment.role = .operand then
      ⟨.operand (String.ofList segment.text), ⟨offset, stop⟩⟩ :: operandTokens stop segments
    else operandTokens stop segments

/-- The tag of a lexeme that starts at a byte offset, and its operands. -/
def tokens (offset : Nat) (l : Lexeme) : List (Located Token) :=
  ⟨.tag l.tag, ⟨offset, offset + byteSize l.text⟩⟩ :: operandTokens offset l.segments

/-- The tokens of lexemes that follow each other from a byte offset on, and the end marker. -/
def stream : Nat → List Lexeme → List (Located Token)
  | offset, [] => [⟨.eof, ⟨offset, offset⟩⟩]
  | offset, l :: rest => l.tokens offset ++ stream (offset + byteSize l.text) rest

/-- The lexemes with the positions where they start. -/
def placed : Position → List Lexeme → List (Position × Lexeme)
  | _, [] => []
  | p, l :: rest => (p, l) :: placed (p.after l.text) rest

end Lexeme

end Jawn
