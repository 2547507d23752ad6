import Jawn.Fault

/-!
# Nesting

The check of a strict run. It walks over a program once and keeps the brackets that are open and
the last construct that was not a space:

* a closing bracket must close the bracket opened last;
* no bracket may be open at the end;
* the continuation of a condition must follow `if (`, with only spaces between.

The walk can go on after a fault. A closing bracket takes away what it was compared with, whether
that fits or not.
-/

namespace Jawn

/-- What has been seen of a program so far. -/
structure Nesting where
  /-- The constructs that wait for their closing brackets, the innermost first. -/
  opened : List Opener := []
  /-- The last construct that was not a space. -/
  previous : Option (Located Tag) := none
  deriving DecidableEq, Repr

namespace Nesting

def push (n : Nesting) (bracket : Bracket) (c : Located Construct) : Nesting :=
  { n with opened := ⟨bracket, c.value.tag, c.span⟩ :: n.opened }

/-- Closes the innermost bracket, which must be of the given kind. -/
def close (n : Nesting) (bracket : Bracket) (span : Span) : Nesting × Option Fault :=
  match n.opened with
  | [] => (n, some (.strayClose bracket span))
  | opener :: rest =>
    ({ n with opened := rest },
      if opener.bracket = bracket then none else some (.mismatchedClose bracket span opener))

/-- Whether a condition has just been started. -/
def inCondition (n : Nesting) : Bool :=
  match n.previous with
  | some previous => previous.value == .ifHead
  | none => false

/-- Follows the effect of a construct on the open brackets. -/
def follow (n : Nesting) (c : Located Construct) : Nesting × Option Fault :=
  match c.value.effect with
  | .keeps => (n, none)
  | .opens bracket => (n.push bracket c, none)
  | .closes bracket => n.close bracket c.span
  | .continues =>
    if n.inCondition then
      match n.close .paren c.span with
      | (m, none) => (m.push .curly c, none)
      | faulty => faulty
    else (n, some (.orphanCondition ⟨c.value.tag, c.span⟩ n.previous))

/-- Visits one construct. A construct at fault is not remembered as the last one. -/
def visit (n : Nesting) (c : Located Construct) : Nesting × Option Fault :=
  match n.follow c with
  | (m, none) =>
    (if c.value = .space then m else { m with previous := some ⟨c.value.tag, c.span⟩ }, none)
  | faulty => faulty

/-- The fault at the end of a program, if brackets are open. -/
def finish (n : Nesting) : Option Fault :=
  n.opened.getLast?.map fun opener => .unclosed opener n.opened.length

/-- Visits constructs up to the first fault. -/
def visitAll (n : Nesting) : List (Located Construct) → Except Fault Nesting
  | [] => .ok n
  | c :: rest =>
    match n.visit c with
    | (m, none) => m.visitAll rest
    | (_, some fault) => .error fault

/-- The first fault in the nesting of a program. -/
def check (program : List (Located Construct)) : Option Fault :=
  match visitAll {} program with
  | .ok n => n.finish
  | .error fault => some fault

end Nesting

end Jawn
