import Jawn.Compile

/-!
# Faults without their places

A strict run carries the spans of constructs along, to report them, but decides nothing by them.
So if two programs differ only in the places of their constructs, so do the faults that the check
finds:

* `Fault.diagnostic_unplaced`: a fault without its places has the same wording;
* `Nesting.visit_unplaced`: one visit without the places;
* `Nesting.check_unplaced`: the check of a program without the places of its constructs;
* `Nesting.unplaced_check_congr`: programs with the same constructs have the same faults, apart from
  the places.
-/

namespace Jawn

/-- The span that stands for no place. -/
def Span.nowhere : Span := ⟨0, 0⟩

def Located.unplaced {α : Type} (x : Located α) : Located α :=
  ⟨x.value, .nowhere⟩

def Opener.unplaced (o : Opener) : Opener :=
  { o with span := .nowhere }

namespace Fault

/-- A fault without its byte offsets. The row and the column of a character stay. -/
def unplaced : Fault → Fault
  | unexpectedCharacter c p => .unexpectedCharacter c { p with offset := 0 }
  | unexpectedToken expected found reading =>
    .unexpectedToken expected found.unplaced (reading.map Located.unplaced)
  | incompleteConstruct tag _ => .incompleteConstruct tag.unplaced 0
  | missingEndMarker _ => .missingEndMarker 0
  | mismatchedClose bracket _ opener => .mismatchedClose bracket .nowhere opener.unplaced
  | strayClose bracket _ => .strayClose bracket .nowhere
  | unclosed opener count => .unclosed opener.unplaced count
  | orphanCondition tag previous =>
    .orphanCondition tag.unplaced (previous.map Located.unplaced)

end Fault

/-- A diagnostic without the spans of its labels. -/
def Diagnostic.unplaced (d : Diagnostic) : Diagnostic :=
  { d with labels := d.labels.map fun label => { label with span := .nowhere } }

/-- Apart from the spans of its labels, the wording of a fault does not depend on its places. -/
theorem Fault.diagnostic_unplaced (f : Fault) :
    f.unplaced.diagnostic.unplaced = f.diagnostic.unplaced := by
  cases f with
  | unexpectedToken expected found reading => cases reading <;> rfl
  | orphanCondition tag previous => cases previous <;> rfl
  | _ => rfl

/-- Of a character at fault, only the offset is left open. -/
theorem Fault.eq_unexpectedCharacter {f : Fault} {c : Char} {p : Position}
    (h : f.unplaced = (unexpectedCharacter c p).unplaced) :
    ∃ offset, f = .unexpectedCharacter c { p with offset } := by
  cases f with
  | unexpectedCharacter d q =>
    simp only [unplaced, unexpectedCharacter.injEq, Position.mk.injEq] at h
    obtain ⟨rfl, -, hrow, hcolumn⟩ := h
    exact ⟨q.offset, by rw [← hrow, ← hcolumn]⟩
  | _ => cases h

namespace Nesting

def unplaced (n : Nesting) : Nesting :=
  ⟨n.opened.map Opener.unplaced, n.previous.map Located.unplaced⟩

/-- A step without its places. -/
def unplacedStep (step : Nesting × Option Fault) : Nesting × Option Fault :=
  (step.1.unplaced, step.2.map Fault.unplaced)

theorem close_unplaced (n : Nesting) (bracket : Bracket) (span : Span) :
    n.unplaced.close bracket .nowhere = unplacedStep (n.close bracket span) := by
  obtain ⟨_ | ⟨opener, rest⟩, previous⟩ := n
  · rfl
  · by_cases h : opener.bracket = bracket
    · simp [close, unplaced, unplacedStep, Opener.unplaced, h]
    · simp [close, unplaced, unplacedStep, Opener.unplaced, h, Fault.unplaced]

theorem inCondition_unplaced (n : Nesting) : n.unplaced.inCondition = n.inCondition := by
  obtain ⟨opened, _ | previous⟩ := n <;> rfl

theorem follow_unplaced (n : Nesting) (c : Located Construct) :
    n.unplaced.follow c.unplaced = unplacedStep (n.follow c) := by
  have heffect : c.unplaced.value.effect = c.value.effect := rfl
  rw [follow, follow, heffect]
  cases c.value.effect with
  | keeps => rfl
  | opens bracket => rfl
  | closes bracket => exact close_unplaced n bracket c.span
  | continues =>
    simp only [inCondition_unplaced]
    split
    · have hclose := close_unplaced n .paren c.span
      rw [show c.unplaced.span = .nowhere from rfl, hclose]
      obtain ⟨m, _ | fault⟩ := n.close .paren c.span <;> rfl
    · rfl

theorem visit_unplaced (n : Nesting) (c : Located Construct) :
    n.unplaced.visit c.unplaced = unplacedStep (n.visit c) := by
  rw [visit, visit, follow_unplaced]
  obtain ⟨m, _ | fault⟩ := n.follow c
  · by_cases h : c.value = .space
    · simp [unplacedStep, Located.unplaced, h]
    · simp [unplacedStep, Located.unplaced, h, unplaced]
  · rfl

theorem visitAll_unplaced (n : Nesting) (program : List (Located Construct)) :
    n.unplaced.visitAll (program.map Located.unplaced) =
      ((n.visitAll program).map unplaced).mapError Fault.unplaced := by
  induction program generalizing n with
  | nil => rfl
  | cons c program ih =>
    rw [List.map_cons, visitAll, visitAll, visit_unplaced]
    obtain ⟨m, _ | fault⟩ := n.visit c
    · exact ih m
    · rfl

theorem finish_unplaced (n : Nesting) : n.unplaced.finish = n.finish.map Fault.unplaced := by
  rw [finish, finish]
  simp only [unplaced, List.getLast?_map, List.length_map, Option.map_map]
  rfl

/-- The check of a program without the places of its constructs. -/
theorem check_unplaced (program : List (Located Construct)) :
    check (program.map Located.unplaced) = (check program).map Fault.unplaced := by
  have hvisit := visitAll_unplaced {} program
  have hstart : unplaced {} = {} := rfl
  rw [hstart] at hvisit
  rw [check, check, hvisit]
  cases visitAll {} program with
  | ok n => exact finish_unplaced n
  | error fault => rfl

/-- The faults of programs with the same constructs are the same, apart from their places. -/
theorem unplaced_check_congr {p q : List (Located Construct)} (h : programOf p = programOf q) :
    (check p).map Fault.unplaced = (check q).map Fault.unplaced := by
  have hunplaced : ∀ program : List (Located Construct), program.map Located.unplaced =
      (programOf program).map fun c => ⟨c, .nowhere⟩ := by
    intro program
    rw [programOf, List.map_map]
    rfl
  rw [← check_unplaced, ← check_unplaced, hunplaced, hunplaced, h]

end Nesting

end Jawn
