import Jawn.Bracket
import Jawn.Diagnostic
import Jawn.Text.Escape
import Jawn.Text.Position
import Jawn.Token

/-!
# Faults

Everything that can be wrong with a source or a stream of tokens. `Fault.diagnostic` holds the
wording.
-/

namespace Jawn

/-- What would have been right in the place of a token. -/
inductive Expected where
  | constructTag
  | operand
  | quote
  | magnitude
  | shift
  | nothing
  deriving DecidableEq, Repr

def Expected.display : Expected → String
  | constructTag => "construct tag"
  | operand => "operand"
  | quote => "string delimiter"
  | magnitude => "`>>` or `<<`"
  | shift => "`shl` or `shr`"
  | nothing => "nothing after the end of input"

inductive Fault where
  /-- No lexeme starts with this character. -/
  | unexpectedCharacter (c : Char) (position : Position)
  /-- A token of the wrong kind, while the operands of a tag were read or between constructs. -/
  | unexpectedToken (expected : Expected) (found : Located Token) (reading : Option (Located Tag))
  /-- The stream, which ends at a byte offset, lacks operands of this tag. -/
  | incompleteConstruct (tag : Located Tag) (streamEnd : Nat)
  /-- The stream, which ends at a byte offset, has no end marker. -/
  | missingEndMarker (streamEnd : Nat)
  /-- A bracket that closes another kind than the one opened last. -/
  | mismatchedClose (bracket : Bracket) (span : Span) (opener : Opener)
  /-- A closing bracket with nothing open. -/
  | strayClose (bracket : Bracket) (span : Span)
  /-- Brackets still open at the end, and the outermost of them. -/
  | unclosed (opener : Opener) (count : Nat)
  /-- The continuation of a condition that does not follow the start of one. -/
  | orphanCondition (tag : Located Tag) (previous : Option (Located Tag))
  deriving DecidableEq, Repr

namespace Fault

def code : Fault → Code
  | unexpectedCharacter .. => .unexpectedCharacter
  | unexpectedToken .. => .unexpectedToken
  | incompleteConstruct .. | missingEndMarker .. => .incompleteInput
  | mismatchedClose .. | strayClose .. => .unbalancedClose
  | unclosed .. => .unclosedConstruct
  | orphanCondition .. => .orphanCondition

def message : Fault → String
  | unexpectedCharacter c p =>
    s!"unexpected character `{escape c}` at row {p.row}, column {p.column}"
  | unexpectedToken expected found _ =>
    s!"expected {expected.display}, found {found.value.display}"
  | incompleteConstruct tag _ =>
    s!"incomplete input, {tag.value.name} expects {tag.value.arity} operand(s)"
  | missingEndMarker _ => "incomplete input, the token stream has no end marker"
  | mismatchedClose bracket _ opener =>
    s!"`{bracket.close}` does not close the {opener.tag.name} opened here"
  | strayClose bracket _ => s!"`{bracket.close}` closes nothing"
  | unclosed opener _ => s!"{opener.tag.name} is never closed"
  | orphanCondition tag _ => s!"{tag.value.name} must directly follow `if (`"

/-- The part of the source that is at fault. -/
def span : Fault → Span
  | unexpectedCharacter c p => ⟨p.offset, p.offset + c.utf8Size⟩
  | unexpectedToken _ found _ => found.span
  | incompleteConstruct tag streamEnd => ⟨tag.span.start, max streamEnd tag.span.stop⟩
  | missingEndMarker streamEnd => ⟨streamEnd, streamEnd⟩
  | mismatchedClose _ span _ => span
  | strayClose _ span => span
  | unclosed opener _ => opener.span
  | orphanCondition tag _ => tag.span

/-- A related part of the source, and how it is related. -/
def related : Fault → Option (Span × String)
  | unexpectedToken _ _ (some tag) => some (tag.span, s!"while reading {tag.value.display}")
  | mismatchedClose _ _ opener => some (opener.span, s!"expects `{opener.bracket.close}`")
  | orphanCondition _ (some previous) =>
    some (previous.span, s!"preceded by {previous.value.name}")
  | _ => none

def help : Fault → Option String
  | unexpectedCharacter .. =>
    some "no construct starts here; quote it inside a string literal if it is text"
  | unexpectedToken _ _ (some tag) =>
    some s!"{tag.value.name} takes exactly {tag.value.arity} operand(s)"
  | unexpectedToken _ found none =>
    if found.value.isOperand then some "every operand must follow the tag that captured it"
    else none
  | incompleteConstruct .. => none
  | missingEndMarker _ => some "token streams end with a single EOF"
  | mismatchedClose .. => some "close constructs in the reverse order they were opened"
  | strayClose bracket _ => some s!"remove the `{bracket.close}` or open a construct before it"
  | unclosed opener count =>
    some s!"add a matching `{opener.bracket.close}` ({count} construct(s) still open)"
  | orphanCondition .. => some "start the condition with `if (`"

/-- A fault with its wording. -/
def diagnostic (f : Fault) : Diagnostic where
  message := f.message
  code := some f.code
  labels := ⟨f.span, f.code.description, true⟩ ::
    (f.related.map fun (span, message) => Label.mk span message false).toList
  help := f.help

end Fault

end Jawn
