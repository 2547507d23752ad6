import Jawn.Compile
import Mathlib.Data.List.Induction

/-!
# Balanced brackets

A word of brackets is balanced if each bracket is closed by its own kind, and in the reverse order
of opening (`Balanced`, the Dyck words over three kinds). Reading a word from the left with a stack
of the kinds that are open (`settle`) decides this:

* `balanced_iff`: a word is balanced if and only if reading it leaves nothing open;
* `settle_append_of_balanced`: a balanced word can be left out of any word.

The check of a strict run is such a reading of the brackets that the constructs of a program stand
for:

* `Nesting.kindsAfter_follow`: a construct is visited without a fault if its brackets fit and it
  does not continue a condition that was not started;
* `Nesting.Walked`: what the state knows of the constructs before it, kept by every visit;
* `Nesting.visitAll_induction`, `Nesting.exists_of_visitAll_error`: so a whole walk keeps it, up to
  the first construct at fault;
* `Nesting.check_eq_none_iff`: the programs without a fault are those with a balanced word in which
  all conditions are started.
-/

namespace Jawn

/-- One side of a pair of brackets. -/
inductive Edge where
  | opens (bracket : Bracket)
  | closes (bracket : Bracket)
  deriving DecidableEq, Repr

/-- Words in which each bracket is closed by its own kind, in the reverse order of opening. -/
inductive Balanced : List Edge → Prop where
  | nil : Balanced []
  | pair (bracket : Bracket) {inner rest : List Edge} (hinner : Balanced inner)
      (hrest : Balanced rest) : Balanced (.opens bracket :: (inner ++ .closes bracket :: rest))

/-- The brackets that are open behind a word, the innermost first, where `opened` are those open
before it. A closing bracket must fit the innermost one. -/
def settle : List Bracket → List Edge → Option (List Bracket)
  | opened, [] => some opened
  | opened, .opens b :: word => settle (b :: opened) word
  | [], .closes _ :: _ => none
  | a :: opened, .closes b :: word => if a = b then settle opened word else none

variable {word u v : List Edge} {opened : List Bracket}

theorem settle_append (opened : List Bracket) (u v : List Edge) :
    settle opened (u ++ v) = (settle opened u).bind (settle · v) := by
  fun_induction settle opened u with
  | case1 opened => rfl
  | case2 opened b u ih => exact ih
  | case3 b u => rfl
  | case4 opened b u ih =>
    rw [List.cons_append, settle, if_pos rfl]
    exact ih
  | case5 a opened b u hne =>
    rw [List.cons_append, settle, if_neg hne]
    rfl

theorem settle_append_of_balanced (h : Balanced u) (opened : List Bracket) (v : List Edge) :
    settle opened (u ++ v) = settle opened v := by
  induction h generalizing opened v with
  | nil => rfl
  | @pair b inner rest _ _ ihinner ihrest =>
    rw [List.cons_append, settle, List.append_assoc, ihinner, List.cons_append, settle, if_pos rfl,
      ihrest]

/-- A word that closes the given brackets one after the other, with balanced words between. -/
def Unwinds : List Bracket → List Edge → Prop
  | [], word => Balanced word
  | b :: opened, word => ∃ inner rest, word = inner ++ .closes b :: rest ∧ Balanced inner ∧
      Unwinds opened rest

/-- A pair in front of a word that unwinds goes into its first balanced part. -/
theorem unwinds_pair {b : Bracket} (hu : Balanced u) (hv : Unwinds opened v) :
    Unwinds opened (.opens b :: (u ++ .closes b :: v)) := by
  cases opened with
  | nil => exact .pair b hu hv
  | cons a opened =>
    obtain ⟨inner, rest, rfl, hinner, hrest⟩ := hv
    exact ⟨_, rest, by simp, .pair b hu hinner, hrest⟩

theorem unwinds_of_settle (h : settle opened word = some []) : Unwinds opened word := by
  fun_induction settle opened word with
  | case1 opened =>
    obtain rfl := Option.some.inj h
    exact .nil
  | case2 opened b word ih =>
    obtain ⟨inner, rest, rfl, hinner, hrest⟩ := ih h
    exact unwinds_pair hinner hrest
  | case3 b word => cases h
  | case4 opened b word ih => exact ⟨[], word, rfl, .nil, ih h⟩
  | case5 a opened b word hne => cases h

/-- A word is balanced if and only if reading it leaves nothing open. -/
theorem balanced_iff : Balanced word ↔ settle [] word = some [] := by
  constructor
  · intro h
    have hword := settle_append_of_balanced h [] []
    rwa [List.append_nil] at hword
  · exact unwinds_of_settle

instance (word : List Edge) : Decidable (Balanced word) :=
  decidable_of_iff _ balanced_iff.symm

theorem Balanced.append (hu : Balanced u) (hv : Balanced v) : Balanced (u ++ v) := by
  rw [balanced_iff, settle_append_of_balanced hu]
  exact balanced_iff.1 hv

/-! ## The brackets of a program -/

/-- An element of a list with one more element is this one or stands before it. -/
theorem concat_eq_append_cons {α : Type} {l before after : List α} {x y : α}
    (h : l ++ [x] = before ++ y :: after) :
    (l = before ∧ x = y) ∨ ∃ after', l = before ++ y :: after' := by
  rcases List.eq_nil_or_concat after with rfl | ⟨after, z, rfl⟩
  · exact .inl (List.append_inj' h rfl |>.imp_right List.singleton_inj.1)
  · have h' : l ++ [x] = (before ++ y :: after) ++ [z] := by simpa using h
    exact .inr ⟨after, (List.append_inj' h' rfl).1⟩

/-- The brackets that a construct stands for. The head of a class, a function or a condition leaves
one open, and the continuation of a condition closes its parenthesis and opens its block. -/
def Construct.edges : Construct → List Edge
  | classHead .. | subclassHead .. | functionHead .. | elseHead | openCurly => [.opens .curly]
  | methodCall .. | openParen | ifHead => [.opens .paren]
  | openSquare => [.opens .square]
  | closeCurly => [.closes .curly]
  | closeParen => [.closes .paren]
  | closeSquare => [.closes .square]
  | oneOperator .. | twoOperators .. | maybe | maybeWeighted .. => [.closes .paren, .opens .curly]
  | _ => []

namespace Program

def edges (program : Program) : List Edge :=
  program.flatMap Construct.edges

/-- The last construct that is not a space. -/
def lastVisible (program : Program) : Option Construct :=
  (program.filter (· ≠ .space)).getLast?

/-- Each continuation of a condition has `if (` before it, with only spaces between. -/
def ConditionsStarted (program : Program) : Prop :=
  ∀ before c after, program = before ++ c :: after → c.continuesCondition = true →
    lastVisible before = some .ifHead

variable {p q : Program} {c : Construct}

@[simp]
theorem edges_append (p q : Program) : edges (p ++ q) = edges p ++ edges q :=
  List.flatMap_append

@[simp]
theorem edges_singleton (c : Construct) : edges [c] = c.edges :=
  List.flatMap_singleton ..

theorem lastVisible_concat (p : Program) (c : Construct) :
    lastVisible (p ++ [c]) = if c = .space then lastVisible p else some c := by
  by_cases hc : c = .space <;> simp [lastVisible, hc]

theorem lastVisible_append_of_ne_none (h : lastVisible q ≠ none) :
    lastVisible (p ++ q) = lastVisible q := by
  obtain ⟨c, hc⟩ := Option.ne_none_iff_exists'.1 h
  rw [lastVisible] at hc
  rw [lastVisible, lastVisible, List.filter_append, List.getLast?_append, hc, Option.some_or]

theorem conditionsStarted_nil : ConditionsStarted [] := by
  intro before c after h
  simp at h

theorem conditionsStarted_concat : ConditionsStarted (p ++ [c]) ↔
    ConditionsStarted p ∧ (c.continuesCondition = true → lastVisible p = some .ifHead) := by
  constructor
  · intro h
    refine ⟨fun before d after hp hd => h before d (after ++ [c]) (by simp [hp]) hd, ?_⟩
    exact h p c [] rfl
  · rintro ⟨hp, hc⟩ before d after heq hd
    rcases concat_eq_append_cons heq with ⟨rfl, rfl⟩ | ⟨after, heq⟩
    · exact hc hd
    · exact hp before d after heq hd

theorem ConditionsStarted.append (hp : ConditionsStarted p) (hq : ConditionsStarted q) :
    ConditionsStarted (p ++ q) := by
  -- Behind each construct of `q` the conditions of `p` do not matter any more.
  induction q using List.reverseRecOn with
  | nil => simpa using hp
  | append_singleton q c ih =>
    rw [conditionsStarted_concat] at hq
    rw [← List.append_assoc, conditionsStarted_concat]
    refine ⟨ih hq.1, fun hc => ?_⟩
    rw [lastVisible_append_of_ne_none (by simp [hq.2 hc]), hq.2 hc]

instance (program : Program) : Decidable (ConditionsStarted program) :=
  decidable_of_iff (∀ i : Fin program.length, program[i].continuesCondition = true →
    lastVisible (program.take i) = some .ifHead) <| by
  constructor
  · rintro h before c after rfl hc
    simpa [hc] using h ⟨before.length, by simp⟩
  · intro h i hi
    exact h _ _ (program.drop (i + 1)) (by simp) hi

end Program

/-! ## The walk over a program -/

/-- The brackets of an effect. -/
def Effect.edges : Effect → List Edge
  | keeps => []
  | opens b => [.opens b]
  | closes b => [.closes b]
  | continues => [.closes .paren, .opens .curly]

theorem Construct.edges_effect (c : Construct) : c.effect.edges = c.edges := by
  cases c <;> rfl

theorem Construct.tag_eq_ifHead_iff {c : Construct} : c.tag = .ifHead ↔ c = .ifHead := by
  cases c <;> simp [tag]

theorem Construct.effect_eq_continues_iff (c : Construct) :
    c.effect = .continues ↔ c.continuesCondition = true := by
  cases c <;> simp [effect, continuesCondition]

namespace Nesting

variable {n m : Nesting} {c : Located Construct}

/-- The kinds of the brackets that are open, the innermost first. -/
def kinds (n : Nesting) : List Bracket :=
  n.opened.map Opener.bracket

/-- The kinds that are open behind a step, if it finds no fault. -/
def kindsAfter : Nesting × Option Fault → Option (List Bracket)
  | (n, none) => some n.kinds
  | (_, some _) => none

theorem kindsAfter_close (n : Nesting) (b : Bracket) (span : Span) :
    kindsAfter (n.close b span) = settle n.kinds [.closes b] := by
  obtain ⟨opened, previous⟩ := n
  cases opened with
  | nil => rfl
  | cons opener opened =>
    by_cases hb : opener.bracket = b
    · simp [close, kindsAfter, kinds, settle, hb]
    · simp [close, kindsAfter, kinds, settle, hb]

theorem previous_of_close {b : Bracket} {span : Span} (h : n.close b span = (m, none)) :
    m.previous = n.previous := by
  rw [close] at h
  split at h
  · cases h
  · obtain ⟨rfl, -⟩ := Prod.mk.inj h
    rfl

/-- Following a construct reads its brackets, if it does not continue a condition that was not
started. -/
theorem kindsAfter_follow (n : Nesting) (c : Located Construct) :
    kindsAfter (n.follow c) =
      if c.value.continuesCondition = true → n.inCondition = true
      then settle n.kinds c.value.edges else none := by
  rw [follow, ← Construct.edges_effect]
  simp only [← Construct.effect_eq_continues_iff]
  cases heffect : c.value.effect with
  | keeps => simp [kindsAfter, Effect.edges, settle]
  | opens b => simp [kindsAfter, kinds, push, Effect.edges, settle]
  | closes b => simp [kindsAfter_close, Effect.edges]
  | continues =>
    by_cases hcondition : n.inCondition = true
    · have hclose := kindsAfter_close n .paren c.span
      have hsplit := settle_append n.kinds [.closes .paren] [.opens .curly]
      simp only [hcondition, implies_true, if_true, Effect.edges]
      rw [List.singleton_append] at hsplit
      rw [hsplit, ← hclose]
      rcases n.close .paren c.span with ⟨m, _ | fault⟩
      · rfl
      · rfl
    · simp [hcondition, kindsAfter]

theorem previous_of_follow (h : n.follow c = (m, none)) : m.previous = n.previous := by
  rw [follow] at h
  split at h
  · obtain ⟨rfl, -⟩ := Prod.mk.inj h
    rfl
  · obtain ⟨rfl, -⟩ := Prod.mk.inj h
    rfl
  · exact previous_of_close h
  · split at h
    · split at h
      · rename_i hclose
        have hprevious := previous_of_close hclose
        obtain ⟨rfl, -⟩ := Prod.mk.inj h
        exact hprevious
      · exact previous_of_close h
    · cases h

theorem kindsAfter_visit (n : Nesting) (c : Located Construct) :
    kindsAfter (n.visit c) = kindsAfter (n.follow c) := by
  rw [visit]
  rcases n.follow c with ⟨m, _ | fault⟩
  · by_cases hspace : c.value = .space
    · simp [kindsAfter, hspace]
    · simp [kindsAfter, kinds, hspace]
  · rfl

theorem previous_of_visit (h : n.visit c = (m, none)) :
    m.previous = if c.value = .space then n.previous else some ⟨c.value.tag, c.span⟩ := by
  rw [visit] at h
  split at h
  · rename_i m' hfollow
    obtain ⟨rfl, -⟩ := Prod.mk.inj h
    split
    · exact previous_of_follow hfollow
    · rfl
  · rename_i hfaulty
    exact absurd h (hfaulty m)

/-- What a state knows of the constructs that have been visited. -/
structure Walked (n : Nesting) (seen : Program) : Prop where
  kinds : settle [] seen.edges = some n.kinds
  previous : n.previous.map Located.value = seen.lastVisible.map Construct.tag
  started : seen.ConditionsStarted

theorem walked_nil : Walked {} [] :=
  ⟨rfl, rfl, Program.conditionsStarted_nil⟩

variable {seen : Program}

theorem Walked.inCondition_iff (h : n.Walked seen) :
    n.inCondition = true ↔ seen.lastVisible = some .ifHead := by
  have hprevious := h.previous
  rw [inCondition]
  cases hn : n.previous with
  | none =>
    rw [hn] at hprevious
    simp [Option.map_eq_none_iff.1 hprevious.symm]
  | some tag =>
    rw [hn] at hprevious
    obtain ⟨c, hc, hctag⟩ := Option.map_eq_some_iff.1 hprevious.symm
    simp [hc, ← hctag, Construct.tag_eq_ifHead_iff]

/-- What the visit of one more construct finds. -/
theorem Walked.kindsAfter_visit (h : n.Walked seen) (c : Located Construct) :
    Nesting.kindsAfter (n.visit c) =
      if (seen ++ [c.value]).ConditionsStarted then settle [] (seen ++ [c.value]).edges
      else none := by
  rw [Nesting.kindsAfter_visit, kindsAfter_follow, Program.edges_append, Program.edges_singleton,
    settle_append, h.kinds, Option.bind_some]
  simp only [Program.conditionsStarted_concat, h.started, h.inCondition_iff, true_and]

theorem Walked.visit (h : n.Walked seen) (hvisit : n.visit c = (m, none)) :
    m.Walked (seen ++ [c.value]) := by
  have hkinds := h.kindsAfter_visit c
  rw [hvisit, kindsAfter] at hkinds
  split at hkinds
  · rename_i hstarted
    refine ⟨hkinds.symm, ?_, hstarted⟩
    rw [previous_of_visit hvisit, Program.lastVisible_concat]
    split
    · exact h.previous
    · rfl
  · cases hkinds

/-- A program in which some bracket does not fit or some condition is not started. -/
def Faulty (program : Program) : Prop :=
  settle [] program.edges = none ∨ ¬ program.ConditionsStarted

theorem Faulty.append {p : Program} (h : Faulty p) (q : Program) : Faulty (p ++ q) := by
  rcases h with h | h
  · left
    rw [Program.edges_append, settle_append, h, Option.bind_none]
  · right
    intro hstarted
    refine h fun before c after hp => hstarted before c (after ++ q) ?_
    simp [hp]

theorem Walked.faulty {fault : Fault} (h : n.Walked seen) (hvisit : n.visit c = (m, some fault)) :
    Faulty (seen ++ [c.value]) := by
  have hkinds := h.kindsAfter_visit c
  rw [hvisit, kindsAfter] at hkinds
  split at hkinds
  · exact .inl hkinds.symm
  · rename_i hstarted
    exact .inr hstarted

/-- What every visit without a fault keeps, a walk without faults keeps. -/
theorem visitAll_induction {motive : Nesting → List (Located Construct) → Prop}
    {seen program : List (Located Construct)}
    (step : ∀ n m seen c, motive n seen → n.visit c = (m, none) → motive m (seen ++ [c]))
    (h : motive n seen) (hvisit : n.visitAll program = .ok m) : motive m (seen ++ program) := by
  induction program generalizing n seen with
  | nil =>
    obtain rfl := Except.ok.inj hvisit
    rwa [List.append_nil]
  | cons c program ih =>
    rw [visitAll] at hvisit
    split at hvisit
    · rename_i k hc
      simpa using ih (step n k seen c h hc) hvisit
    · cases hvisit

/-- A walk that stops, stops at the first construct at fault. -/
theorem exists_of_visitAll_error {program : List (Located Construct)} {fault : Fault}
    (h : n.visitAll program = .error fault) :
    ∃ before c after k m, program = before ++ c :: after ∧ n.visitAll before = .ok k ∧
      k.visit c = (m, some fault) := by
  induction program generalizing n with
  | nil => cases h
  | cons c program ih =>
    rw [visitAll] at h
    split at h
    · rename_i k hc
      obtain ⟨before, d, after, k', m, rfl, hbefore, hd⟩ := ih h
      refine ⟨c :: before, d, after, k', m, rfl, ?_, hd⟩
      rw [visitAll, hc]
      exact hbefore
    · rename_i m fault' hc
      obtain rfl := Except.error.inj h
      exact ⟨[], c, program, n, m, rfl, rfl, hc⟩

theorem Walked.visitAll {program : List (Located Construct)} (h : n.Walked seen)
    (hvisit : n.visitAll program = .ok m) : m.Walked (seen ++ programOf program) := by
  have hstart : n.Walked (seen ++ programOf []) := by simpa [programOf] using h
  refine visitAll_induction (motive := fun n p => n.Walked (seen ++ programOf p)) ?_ hstart hvisit
  intro n m p c hp hc
  simpa [programOf] using hp.visit hc

theorem Walked.faulty_of_visitAll {program : List (Located Construct)} {fault : Fault}
    (h : n.Walked seen) (hvisit : n.visitAll program = .error fault) :
    Faulty (seen ++ programOf program) := by
  obtain ⟨before, c, after, k, m, rfl, hbefore, hc⟩ := exists_of_visitAll_error hvisit
  simpa [programOf] using ((h.visitAll hbefore).faulty hc).append (programOf after)

theorem finish_eq_none_iff : n.finish = none ↔ n.kinds = [] := by
  simp [finish, kinds]

variable {program : List (Located Construct)}

theorem balanced_of_check (h : check program = none) :
    Balanced (programOf program).edges ∧ (programOf program).ConditionsStarted := by
  rw [check] at h
  split at h
  · rename_i n hvisit
    have hwalked := walked_nil.visitAll hvisit
    rw [List.nil_append] at hwalked
    refine ⟨balanced_iff.2 ?_, hwalked.started⟩
    rw [hwalked.kinds, finish_eq_none_iff.1 h]
  · cases h

theorem check_of_balanced (hbalanced : Balanced (programOf program).edges)
    (hstarted : (programOf program).ConditionsStarted) : check program = none := by
  rw [balanced_iff] at hbalanced
  rw [check]
  split
  · rename_i n hvisit
    have hwalked := walked_nil.visitAll hvisit
    rw [List.nil_append] at hwalked
    have hkinds := hwalked.kinds
    rw [hbalanced] at hkinds
    exact finish_eq_none_iff.2 (Option.some.inj hkinds).symm
  · rename_i fault hvisit
    rcases walked_nil.faulty_of_visitAll hvisit with h | h
    · rw [List.nil_append, hbalanced] at h
      cases h
    · exact absurd hstarted h

/-- The check of a strict run finds no fault in exactly the programs whose brackets are balanced and
whose conditions are all started by `if (`. -/
theorem check_eq_none_iff (program : List (Located Construct)) :
    check program = none ↔
      Balanced (programOf program).edges ∧ (programOf program).ConditionsStarted :=
  ⟨balanced_of_check, fun h => check_of_balanced h.1 h.2⟩

end Nesting

end Jawn
