import Jawn.Span

/-!
# Diagnostics

What is reported about a fault in a source: a message, a code, labels on parts of the source and a
hint. A diagnostic is built up step by step.
-/

namespace Jawn

/-- The kinds of faults. -/
inductive Code where
  | unexpectedCharacter
  | unexpectedToken
  | incompleteInput
  | unbalancedClose
  | unclosedConstruct
  | orphanCondition
  deriving DecidableEq, Repr

namespace Code

def display : Code → String
  | unexpectedCharacter => "E001"
  | unexpectedToken => "E100"
  | incompleteInput => "E101"
  | unbalancedClose => "E200"
  | unclosedConstruct => "E201"
  | orphanCondition => "E202"

def description : Code → String
  | unexpectedCharacter => "unexpected character"
  | unexpectedToken => "unexpected token"
  | incompleteInput => "incomplete input"
  | unbalancedClose => "unbalanced close"
  | unclosedConstruct => "unclosed construct"
  | orphanCondition => "orphan condition"

def all : List Code :=
  [unexpectedCharacter, unexpectedToken, incompleteInput, unbalancedClose, unclosedConstruct,
    orphanCondition]

def ofDisplay? (text : String) : Option Code :=
  all.find? fun code => code.display == text

end Code

/-- A remark on a part of the source. -/
structure Label where
  span : Span
  message : String
  /-- Whether the label marks the fault itself and not something related to it. -/
  isPrimary : Bool
  deriving DecidableEq, Repr

structure Diagnostic where
  message : String
  code : Option Code := none
  labels : List Label := []
  help : Option String := none
  deriving DecidableEq, Repr

namespace Diagnostic

def withCode (d : Diagnostic) (code : Code) : Diagnostic :=
  { d with code := some code }

/-- Adds a primary label behind the others. -/
def withLabel (d : Diagnostic) (span : Span) (message : String) : Diagnostic :=
  { d with labels := d.labels ++ [⟨span, message, true⟩] }

/-- Adds a label on something related behind the others. -/
def withSecondary (d : Diagnostic) (span : Span) (message : String) : Diagnostic :=
  { d with labels := d.labels ++ [⟨span, message, false⟩] }

def withHelp (d : Diagnostic) (help : String) : Diagnostic :=
  { d with help := some help }

/-- A diagnostic on one line. -/
def display (d : Diagnostic) : String :=
  match d.code with
  | some code => s!"error[{code.display}]: {d.message}"
  | none => s!"error: {d.message}"

/-- The first of several diagnostics, and how many more there are. -/
def displayAll : List Diagnostic → String
  | [] => ""
  | [d] => d.display
  | d :: rest => s!"{d.display} (+{rest.length} more)"

end Diagnostic

end Jawn
