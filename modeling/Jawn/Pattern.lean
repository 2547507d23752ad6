/-!
# Patterns

A pattern describes texts. `Pattern.ends` tries it at the front of a text and lists what is left
behind each match, in order of priority: the first of two alternatives comes before the second,
and a repetition prefers one more round to stopping.
-/

namespace Jawn

inductive Pattern where
  /-- Exactly this text. -/
  | text (t : List Char)
  /-- One character of a class. -/
  | one (ok : Char → Bool)
  /-- As many characters of a class as possible, then fewer. -/
  | many (ok : Char → Bool)
  | seq (p q : Pattern)
  /-- The first pattern or else the second. -/
  | alt (p q : Pattern)
  /-- As many rounds as possible, then fewer. -/
  | star (p : Pattern)

namespace Pattern

/-- The pattern that matches nothing. -/
def fail : Pattern :=
  .one fun _ => false

def optional (p : Pattern) : Pattern :=
  .alt p (.text [])

/-- One round or more. -/
def plus (p : Pattern) : Pattern :=
  .seq p (.star p)

/-- The first of several texts that fits. -/
def anyOf (texts : List String) : Pattern :=
  texts.foldr (fun t p => .alt (.text t.toList) p) fail

/-- What is left after a run of characters of a class, the longest run first; `shorter` comes
last. -/
def runEnds (ok : Char → Bool) : List Char → List (List Char) → List (List Char)
  | [], shorter => [] :: shorter
  | c :: rest, shorter =>
    if ok c then runEnds ok rest ((c :: rest) :: shorter) else (c :: rest) :: shorter

/-- What is left after at most `rounds` rounds of a step, more rounds first. -/
def rounds (step : List Char → List (List Char)) : Nat → List Char → List (List Char)
  | 0, s => [s]
  | n + 1, s => (step s).flatMap (rounds step n) ++ [s]

/-- What is left of a text behind each match of the pattern at its front, in order of priority.
A round of a repetition takes at least one character, so there are no more rounds than
characters. -/
def ends : Pattern → List Char → List (List Char)
  | .text t, s => if t.isPrefixOf s then [s.drop t.length] else []
  | .one ok, s =>
    match s with
    | [] => []
    | c :: rest => if ok c then [rest] else []
  | .many ok, s => runEnds ok s []
  | .seq p q, s => (p.ends s).flatMap q.ends
  | .alt p q, s => p.ends s ++ q.ends s
  | .star p, s => rounds p.ends s.length s

end Pattern

end Jawn
