import Jawn.Proofs.Form

/-!
# Disjoint languages

Patterns are regular, so it can be decided whether two of them have a text in common. Characters are
sorted into finitely many kinds, which no lexical class tells apart further. The shape of a pattern
is the same pattern over kinds; a class has become a set of kinds, and shapes can be compared.

* `Shape.runs_of_matches`: the kinds of a text of a pattern are a run of the shape of the pattern;
* `Shape.apart`: explores the pairs of shapes that a common run of two shapes can reach, and checks
  that the pairs found are closed under steps and that no pair can end;
* `Shape.not_matches_of_apart`: if this check succeeds, the patterns have no text in common.
-/

namespace Jawn

/-! ## Kinds of characters -/

namespace Kind

/-- The brackets and the characters that a lexical class names. -/
def literals : List Char :=
  ['\x7b', '\x7d', '[', ']', '(', ')', '_', '$', '\r', '\n', '\t', ' ', '"', '\'', '\x60', '\\', ',',
    ':', '-', '+', '*', '/', '%', '<', '>', '!', '=']

/-- One character for each kind: the literals, and further letters, digits and others. -/
def alphabet : List Char :=
  literals ++ ['z', 'Z', '0', '?']

/-- The character that stands for all of its kind. -/
def representative (c : Char) : Char :=
  if c ∈ literals then c
  else if c.isLower then 'z'
  else if c.isUpper then 'Z'
  else if c.isDigit then '0'
  else '?'

def index (c : Char) : Nat :=
  alphabet.idxOf (representative c)

/-- The characters of a list that are in a class, as the bits of a number. -/
def bits (ok : Char → Bool) : List Char → Nat
  | [] => 0
  | c :: cs => 2 * bits ok cs + (ok c).toNat

theorem testBit_bits {ok : Char → Bool} {cs : List Char} {c : Char} (h : c ∈ cs) :
    (bits ok cs).testBit (cs.idxOf c) = ok c := by
  induction cs with
  | nil => cases h
  | cons d cs ih =>
    rw [bits, List.idxOf_cons]
    by_cases hd : d = c
    · subst hd
      cases hok : ok d <;> simp
    · have hmem : c ∈ cs := by simpa [Ne.symm hd] using h
      have hbeq : (d == c) = false := by simpa using hd
      rw [hbeq, cond_false, ← ih hmem]
      cases ok d <;> simp [Nat.testBit_succ, Nat.mul_add_div]

theorem representative_mem (c : Char) : representative c ∈ alphabet := by
  simp only [representative, alphabet, List.mem_append]
  split <;> [skip; split <;> [skip; split <;> [skip; split]]] <;> simp_all

end Kind

/-- A class does not tell characters of one kind apart. -/
def RespectsKinds (ok : Char → Bool) : Prop :=
  ∀ c, ok (Kind.representative c) = ok c

theorem Kind.testBit_index {ok : Char → Bool} (h : RespectsKinds ok) (c : Char) :
    (bits ok alphabet).testBit (index c) = ok c := by
  rw [index, testBit_bits (representative_mem c), h]

/-- The classes of a pattern do not tell characters of one kind apart. -/
def Pattern.RespectsKinds : Pattern → Prop
  | .text _ => True
  | .one ok | .many ok => Jawn.RespectsKinds ok
  | .seq p q | .alt p q => p.RespectsKinds ∧ q.RespectsKinds
  | .star p => p.RespectsKinds

/-! ## Shapes -/

/-- A pattern over kinds. -/
inductive Shape where
  | empty
  /-- One character of a set of kinds. -/
  | one (kinds : Nat)
  | seq (p q : Shape)
  | alt (p q : Shape)
  | star (p : Shape)
  deriving DecidableEq, Repr

namespace Shape

def ofText : List Char → Shape
  | [] => .empty
  | c :: t => .seq (.one (2 ^ Kind.index c)) (ofText t)

def ofPattern : Pattern → Shape
  | .text t => ofText t
  | .one ok => .one (Kind.bits ok Kind.alphabet)
  | .many ok => .star (.one (Kind.bits ok Kind.alphabet))
  | .seq p q => .seq (ofPattern p) (ofPattern q)
  | .alt p q => .alt (ofPattern p) (ofPattern q)
  | .star p => .star (ofPattern p)

/-- Whether a run can end. -/
def nullable : Shape → Bool
  | .empty => true
  | .one _ => false
  | .seq p q => p.nullable && q.nullable
  | .alt p q => p.nullable || q.nullable
  | .star _ => true

/-- One shape behind another, without leaving the empty shape in front. -/
def cat : Shape → Shape → Shape
  | .empty, q => q
  | p, q => .seq p q

/-- The ways to take one character: its possible kinds and what is left of the shape. -/
def steps : Shape → List (Nat × Shape)
  | .empty => []
  | .one kinds => [(kinds, .empty)]
  | .seq p q => p.steps.map (fun step => (step.1, cat step.2 q)) ++ if p.nullable then q.steps else []
  | .alt p q => p.steps ++ q.steps
  | .star p => p.steps.map fun step => (step.1, cat step.2 (.star p))

/-- A shape can take kinds of characters one by one and then end. -/
def Runs (s : Shape) : List Nat → Prop
  | [] => s.nullable = true
  | k :: ks => ∃ step ∈ s.steps, step.1.testBit k = true ∧ step.2.Runs ks

variable {p q : Shape} {k : Nat} {ks ls : List Nat}

theorem runs_empty (h : Runs .empty ks) : ks = [] := by
  cases ks with
  | nil => rfl
  | cons k ks =>
    obtain ⟨step, hstep, -⟩ := h
    cases hstep

theorem runs_cat (hp : p.Runs ks) (hseq : (Shape.seq p q).Runs (ks ++ ls)) (hq : q.Runs ls) :
    (cat p q).Runs (ks ++ ls) := by
  cases p with
  | empty =>
    rw [runs_empty hp]
    exact hq
  | _ => exact hseq

theorem runs_seq (hp : p.Runs ks) (hq : q.Runs ls) : (Shape.seq p q).Runs (ks ++ ls) := by
  induction ks generalizing p with
  | nil =>
    have hnull : p.nullable = true := hp
    cases ls with
    | nil =>
      have hnull' : q.nullable = true := hq
      simp [Runs, nullable, hnull, hnull']
    | cons l ls =>
      obtain ⟨step, hstep, hl, hrest⟩ := hq
      exact ⟨step, by simp [steps, hnull, hstep], hl, hrest⟩
  | cons k ks ih =>
    obtain ⟨step, hstep, hk, hrest⟩ := hp
    refine ⟨(step.1, cat step.2 q), ?_, hk, runs_cat hrest (ih hrest) hq⟩
    exact List.mem_append_left _ (List.mem_map_of_mem hstep)

theorem runs_altLeft (hp : p.Runs ks) : (Shape.alt p q).Runs ks := by
  cases ks with
  | nil =>
    have hnull : p.nullable = true := hp
    simp [Runs, nullable, hnull]
  | cons k ks =>
    obtain ⟨step, hstep, hk, hrest⟩ := hp
    exact ⟨step, List.mem_append_left _ hstep, hk, hrest⟩

theorem runs_altRight (hq : q.Runs ks) : (Shape.alt p q).Runs ks := by
  cases ks with
  | nil =>
    have hnull : q.nullable = true := hq
    simp [Runs, nullable, hnull]
  | cons k ks =>
    obtain ⟨step, hstep, hk, hrest⟩ := hq
    exact ⟨step, List.mem_append_right _ hstep, hk, hrest⟩

theorem runs_star (hp : p.Runs ks) (hstar : (Shape.star p).Runs ls) :
    (Shape.star p).Runs (ks ++ ls) := by
  cases ks with
  | nil => exact hstar
  | cons k ks =>
    obtain ⟨step, hstep, hk, hrest⟩ := hp
    exact ⟨(step.1, cat step.2 (.star p)), List.mem_map_of_mem hstep, hk,
      runs_cat hrest (runs_seq hrest hstar) hstar⟩

theorem runs_one {kinds : Nat} (h : kinds.testBit k = true) : (Shape.one kinds).Runs [k] :=
  ⟨(kinds, .empty), List.mem_singleton_self _, h, rfl⟩

theorem runs_ofText (t : List Char) : (ofText t).Runs (t.map Kind.index) := by
  induction t with
  | nil => rfl
  | cons c t ih =>
    have hone : (Shape.one (2 ^ Kind.index c)).Runs [Kind.index c] :=
      runs_one Nat.testBit_two_pow_self
    exact runs_seq hone ih

/-- The kinds of a text of a pattern are a run of the shape of the pattern. -/
theorem runs_of_matches {p : Pattern} {t : List Char} (hp : p.RespectsKinds) (h : p.Matches t) :
    (ofPattern p).Runs (t.map Kind.index) := by
  induction h with
  | text t => exact runs_ofText t
  | @one ok c hc => exact runs_one (by rw [Kind.testBit_index hp, hc])
  | @many ok t ht =>
    induction t with
    | nil => rfl
    | cons c t ih =>
      rw [List.forall_mem_cons] at ht
      have hone : (Shape.one (Kind.bits ok Kind.alphabet)).Runs [Kind.index c] :=
        runs_one (by rw [Kind.testBit_index hp, ht.1])
      exact runs_star hone (ih ht.2)
  | seq _ _ ihp ihq =>
    rw [List.map_append]
    exact runs_seq (ihp hp.1) (ihq hp.2)
  | altLeft _ ih => exact runs_altLeft (ih hp.1)
  | altRight _ ih => exact runs_altRight (ih hp.2)
  | starNil => rfl
  | starCons _ _ iht ihu =>
    rw [List.map_append]
    exact runs_star (iht hp) (ihu hp)

/-! ## Common runs -/

/-- The pairs that two shapes can reach by taking the same character. -/
def next (p q : Shape) : List (Shape × Shape) :=
  p.steps.flatMap fun step => q.steps.filterMap fun step' =>
    if step.1 &&& step'.1 = 0 then none else some (step.2, step'.2)

/-- The pairs that can be reached from a list of pairs, as far as a bound allows. -/
def explore : Nat → List (Shape × Shape) → List (Shape × Shape) → List (Shape × Shape)
  | 0, seen, _ => seen
  | _, seen, [] => seen
  | n + 1, seen, pair :: todo =>
    if pair ∈ seen then explore n seen todo
    else explore n (pair :: seen) (next pair.1 pair.2 ++ todo)

/-- Steps do not lead out of a list of pairs, and in none of them both shapes can end. -/
def closed (pairs : List (Shape × Shape)) : Bool :=
  pairs.all fun pair =>
    !(pair.1.nullable && pair.2.nullable) && (next pair.1 pair.2).all (· ∈ pairs)

/-- Two shapes have no run in common. -/
def apart (p q : Shape) : Bool :=
  closed (explore 2000 [(p, q)] (next p q))

theorem mem_explore {n : Nat} {seen todo : List (Shape × Shape)} {pair : Shape × Shape}
    (h : pair ∈ seen) : pair ∈ explore n seen todo := by
  fun_induction explore n seen todo with
  | case1 => exact h
  | case2 => exact h
  | case3 _ _ _ _ _ ih => exact ih h
  | case4 _ _ _ _ _ ih => exact ih (List.mem_cons_of_mem _ h)

theorem mem_next {step step' : Nat × Shape} (hstep : step ∈ p.steps) (hstep' : step' ∈ q.steps)
    (hk : step.1.testBit k = true) (hk' : step'.1.testBit k = true) :
    (step.2, step'.2) ∈ next p q := by
  have hand : step.1 &&& step'.1 ≠ 0 := by
    intro hzero
    have hbit := Nat.testBit_and step.1 step'.1 k
    rw [hzero, hk, hk', Nat.zero_testBit] at hbit
    cases hbit
  refine List.mem_flatMap.2 ⟨step, hstep, List.mem_filterMap.2 ⟨step', hstep', ?_⟩⟩
  rw [if_neg hand]

theorem not_runs_of_closed {pairs : List (Shape × Shape)} (hclosed : closed pairs = true)
    (hmem : (p, q) ∈ pairs) (hp : p.Runs ks) : ¬ q.Runs ks := by
  induction ks generalizing p q with
  | nil =>
    intro hq
    have hpair := List.all_eq_true.1 hclosed _ hmem
    have hnull : p.nullable = true := hp
    have hnull' : q.nullable = true := hq
    simp [hnull, hnull'] at hpair
  | cons k ks ih =>
    rintro ⟨step', hstep', hk', hrest'⟩
    obtain ⟨step, hstep, hk, hrest⟩ := hp
    have hpair := List.all_eq_true.1 hclosed _ hmem
    rw [Bool.and_eq_true, List.all_eq_true] at hpair
    have hmem' := of_decide_eq_true (hpair.2 _ (mem_next hstep hstep' hk hk'))
    exact ih hmem' hrest hrest'

/-- Patterns with shapes that are apart have no text in common. -/
theorem not_matches_of_apart {p q : Pattern} (hp : p.RespectsKinds) (hq : q.RespectsKinds)
    (h : apart (ofPattern p) (ofPattern q) = true) {t : List Char} (ht : p.Matches t) :
    ¬ q.Matches t := by
  intro ht'
  exact not_runs_of_closed h (mem_explore List.mem_cons_self) (runs_of_matches hp ht)
    (runs_of_matches hq ht')

end Shape

end Jawn
