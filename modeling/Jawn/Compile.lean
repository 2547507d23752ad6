import Jawn.Construct.Record
import Jawn.Construct.Render
import Jawn.Lexeme
import Jawn.Nesting
import Jawn.Stream

/-!
# From source to JavaScript

A source is cut into lexemes, its tokens are read as constructs, their nesting is checked in a
strict run, and the constructs are written as JavaScript. The first fault ends the run.
-/

namespace Jawn

structure Settings where
  /-- Whether the nesting of a program is checked. -/
  strict : Bool := false
  /-- Whether the output must end with a line feed. -/
  finalNewline : Bool := false
  deriving DecidableEq, Repr

/-- The tokens of a source. -/
def tokenize (source : String) : Except Fault Stream :=
  match Lexeme.scan source.toList with
  | (lexemes, []) => .ok (Lexeme.stream 0 lexemes)
  | (lexemes, c :: _) =>
    .error (.unexpectedCharacter c (({} : Position).after (lexemes.flatMap Lexeme.text)))

/-- The constructs of a stream of tokens. -/
def parseStream (strict : Bool) (tokens : Stream) : Except Fault (List (Located Construct)) :=
  match Stream.build tokens with
  | .error fault => .error fault
  | .ok program =>
    if strict then
      match Nesting.check program with
      | some fault => .error fault
      | none => .ok program
    else .ok program

/-- The constructs of a source. -/
def parse (strict : Bool) (source : String) : Except Fault (List (Located Construct)) :=
  match tokenize source with
  | .error fault => .error fault
  | .ok tokens => parseStream strict tokens

/-- The program of located constructs. -/
def programOf (constructs : List (Located Construct)) : Program :=
  constructs.map Located.value

/-- The JavaScript of a program, with a line feed at its end if the settings ask for one. -/
def generate (settings : Settings) (program : Program) : String :=
  let output := program.render
  if settings.finalNewline && output.toList.getLast? != some '\n' then output ++ "\n" else output

/-- The JavaScript of a source. -/
def compile (settings : Settings) (source : String) : Except Fault String :=
  (parse settings.strict source).map fun constructs => generate settings (programOf constructs)

end Jawn
