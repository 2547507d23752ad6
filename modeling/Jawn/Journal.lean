import Jawn.Compile

/-!
# The journal of a run

What a run records on its way, entry by entry. Each entry has a level, and a reader chooses up to
which level entries are shown.
-/

namespace Jawn

/-- The levels of entries, the gravest first. -/
inductive Level where
  | error
  | warn
  | info
  | debug
  | trace
  deriving DecidableEq, Repr

namespace Level

def display : Level → String
  | error => "ERROR"
  | warn => "WARN"
  | info => "INFO"
  | debug => "DEBUG"
  | trace => "TRACE"

/-- Graver levels have smaller ranks. -/
def rank : Level → Nat
  | error => 1
  | warn => 2
  | info => 3
  | debug => 4
  | trace => 5

end Level

structure Entry where
  level : Level
  message : String
  /-- Named values that belong to the message. -/
  values : List (String × String) := []
  deriving DecidableEq, Repr

abbrev Journal := List Entry

namespace Journal

def displayBool (b : Bool) : String :=
  if b then "true" else "false"

/-- One entry for each lexeme, with the place where it starts. -/
def lexemes (found : List Lexeme) : Journal :=
  (Lexeme.placed {} found).map fun (p, l) =>
    ⟨.trace, "Matched grammar rule",
      [("rule", l.rule.name), ("row", toString p.row), ("column", toString p.column)]⟩

/-- The entries of `tokenize`. -/
def tokenizing (source : String) : Journal :=
  let found := (Lexeme.scan source.toList).1
  lexemes found ++
    match tokenize source with
    | .ok tokens => [⟨.debug, "Tokenized source", [("tokens", toString tokens.length)]⟩]
    | .error _ => []

/-- The entries of a run that only lists the tokens. -/
def listingTokens (source : String) : Journal :=
  [⟨.info, "Tokenizing source", []⟩] ++ tokenizing source ++
    match tokenize source with
    | .ok tokens =>
      [⟨.debug, "Source tokenized successfully", [("tokens", toString tokens.length)]⟩]
    | .error _ => []

/-- The entries of `parse`. -/
def parsing (strict : Bool) (source : String) : Journal :=
  let start : Entry := ⟨.info, "Parsing source", [("strict", displayBool strict)]⟩
  [start, start] ++ tokenizing source ++
    (match (tokenize source).bind Stream.build with
      | .ok constructs => [⟨.debug, "Built leaves", [("leaves", toString constructs.length)]⟩]
      | .error _ => []) ++
    match parse strict source with
    | .ok constructs =>
      [⟨.debug, "Source parsed successfully", [("leaves", toString constructs.length)]⟩,
        ⟨.trace, "Parsed program", [("program", (programOf constructs).display)]⟩]
    | .error _ => []

/-- The entries of `compile`. -/
def compiling (settings : Settings) (source : String) : Journal :=
  parsing settings.strict source ++
    match parse settings.strict source with
    | .ok constructs =>
      let program := programOf constructs
      [⟨.debug, "Generated JavaScript",
          [("leaves", toString program.length),
            ("bytes", toString (byteSize program.render.toList))]⟩,
        ⟨.info, "JavaScript generated successfully",
          [("bytes", toString (byteSize (generate settings program).toList))]⟩]
    | .error _ => []

end Journal

end Jawn
