import Jawn.Proofs.Partners

/-!
# Walks that go on after a fault

The check of a strict run stops at its first fault. A walk can also go on, with the state that the
fault has left behind, and report one outcome for each construct (`reports`):

* `Nesting.visitAll_eq`: up to the first fault both walks are the same;
* `Nesting.Setback`: what a visit at fault reports, and which state it leaves behind;
* `Nesting.check_eq_first_report`: the check is the first report, and no fault changes more of the
  state than the bracket that it compared.

In a walk without faults the two parts of the state belong together:

* `Nesting.Coupled`: right behind `if (`, its parenthesis is the innermost open bracket;
* `Nesting.Coupled.visit`, `Nesting.coupled_of_visitAll`: every visit without a fault keeps this,
  and so does every walk;
* `Nesting.continuation_finds_parenthesis`: so the continuation of a condition never meets a bracket
  of another kind.

The state behind a fault need not be coupled: a closing bracket that does not fit takes the
parenthesis away, and `if (` is still the last construct that was accepted.
-/

namespace Jawn

namespace Nesting

variable {n m : Nesting} {p : List (Located Construct)} {c : Located Construct} {b : Bracket}
  {fault : Fault}

/-! ## Reports -/

/-- The state behind constructs that have all been visited, at fault or not. -/
def persist (n : Nesting) : List (Located Construct) → Nesting
  | [] => n
  | c :: rest => (n.visit c).1.persist rest

/-- What each visit reports in a walk that goes on after faults. -/
def reports (n : Nesting) : List (Located Construct) → List (Option Fault)
  | [] => []
  | c :: rest => (n.visit c).2 :: (n.visit c).1.reports rest

/-- A walk that stops at the first fault finds the first fault of one that goes on. Without a fault
both end in the same state. -/
theorem visitAll_eq (n : Nesting) (program : List (Located Construct)) :
    n.visitAll program = match (n.reports program).findSome? id with
      | some fault => .error fault
      | none => .ok (n.persist program) := by
  induction program generalizing n with
  | nil => rfl
  | cons c program ih =>
    rw [visitAll, reports, persist, List.findSome?_cons]
    obtain ⟨m, _ | fault⟩ := n.visit c
    · exact ih m
    · rfl

/-- A walk over one construct more. -/
theorem visitAll_concat : n.visitAll (p ++ [c]) = .ok m ↔
    ∃ k, n.visitAll p = .ok k ∧ k.visit c = (m, none) := by
  induction p generalizing n with
  | nil =>
    simp only [List.nil_append, visitAll, Except.ok.injEq, exists_eq_left']
    obtain ⟨k, _ | fault⟩ := n.visit c
    · simp
    · simp
  | cons d p ih =>
    rw [List.cons_append, visitAll, visitAll]
    obtain ⟨k, _ | fault⟩ := n.visit d
    · exact ih
    · simp

/-! ## What a fault leaves behind -/

/-- A visit at fault. The continuation of a condition that was not started and a bracket that closes
nothing leave the state as it is. A bracket that closes another kind takes this one away, also
if it belongs to the continuation of a condition, which then opens nothing. -/
inductive Setback (n : Nesting) (c : Located Construct) : Nesting → Fault → Prop where
  | orphan (hc : c.value.continuesCondition = true) (h : n.inCondition = false) :
    Setback n c n (.orphanCondition ⟨c.value.tag, c.span⟩ n.previous)
  | stray {b : Bracket} (hc : .closes b ∈ c.value.edges) (h : n.opened = []) :
    Setback n c n (.strayClose b c.span)
  | mismatch {b : Bracket} {o : Opener} {rest : List Opener} (hc : .closes b ∈ c.value.edges)
      (h : n.opened = o :: rest) (hb : o.bracket ≠ b) :
    Setback n c { n with opened := rest } (.mismatchedClose b c.span o)

theorem setback_of_close (hc : .closes b ∈ c.value.edges)
    (h : n.close b c.span = (m, some fault)) : Setback n c m fault := by
  rcases fault_of_close h with ⟨hopened, rfl, rfl⟩ | ⟨o, rest, hopened, hb, rfl, rfl⟩
  · exact .stray hc hopened
  · exact .mismatch hc hopened hb

theorem setback_of_visit (h : n.visit c = (m, some fault)) : Setback n c m fault := by
  have hedges := c.value.edges_effect
  have hfollow := follow_of_visit h
  rw [follow] at hfollow
  cases heffect : c.value.effect with
  | keeps =>
    rw [heffect] at hfollow
    cases hfollow
  | opens b =>
    rw [heffect] at hfollow
    cases hfollow
  | closes b =>
    rw [heffect] at hfollow hedges
    exact setback_of_close (by simp [← hedges, Effect.edges]) hfollow
  | continues =>
    rw [heffect] at hfollow hedges
    simp only at hfollow
    split at hfollow
    · split at hfollow
      · cases hfollow
      · exact setback_of_close (by simp [← hedges, Effect.edges]) hfollow
    · rename_i hcondition
      obtain ⟨rfl, hfault⟩ := Prod.mk.inj hfollow
      obtain rfl := Option.some.inj hfault
      exact .orphan ((Construct.effect_eq_continues_iff _).1 heffect) (by simpa using hcondition)

/-- A space is never at fault and changes nothing. -/
theorem visit_space (hc : c.value = .space) : n.visit c = (n, none) := by
  have hfollow : n.follow c = (n, none) := by
    rw [follow, hc]
    rfl
  rw [visit, hfollow]
  simp [hc]

/-- The check of a strict run is the first fault that a walk over the whole program reports, or else
the fault at its end. From any state, so also behind faults, a visit at fault does not change the
last construct that was accepted. It leaves the open brackets as they are if it continues a
condition that was not started or if nothing is open. Otherwise it takes exactly the innermost one
away. A space changes nothing. -/
theorem check_eq_first_report (program : List (Located Construct)) :
    check program = ((reports {} program).findSome? id).or (persist {} program).finish ∧
    ∀ (n : Nesting) (c : Located Construct),
      (∀ m fault, n.visit c = (m, some fault) → m.previous = n.previous ∧
        ((fault.code = .orphanCondition ∧ m.opened = n.opened) ∨
          (fault.code = .unbalancedClose ∧ n.opened = [] ∧ m.opened = []) ∨
          ∃ b o, fault.code = .unbalancedClose ∧ fault = .mismatchedClose b c.span o ∧
            n.opened = o :: m.opened ∧ .closes b ∈ c.value.edges ∧ o.bracket ≠ b)) ∧
      (c.value = .space → n.visit c = (n, none)) := by
  constructor
  · rw [check, visitAll_eq]
    cases (reports {} program).findSome? id with
    | none => rfl
    | some fault => rfl
  · intro n c
    refine ⟨fun m fault hvisit => ?_, visit_space⟩
    cases setback_of_visit hvisit with
    | orphan hc h => exact ⟨rfl, .inl ⟨rfl, rfl⟩⟩
    | stray hc h => exact ⟨rfl, .inr (.inl ⟨rfl, h, h⟩)⟩
    | @mismatch b o rest hc h hb => exact ⟨rfl, .inr (.inr ⟨b, o, rfl, rfl, h, hc, hb⟩)⟩

/-- Behind a fault the continuation of a condition can meet the bracket around it. -/
example : reports {} [⟨.openCurly, ⟨0, 1⟩⟩, ⟨.ifHead, ⟨1, 5⟩⟩, ⟨.closeSquare, ⟨5, 6⟩⟩,
      ⟨.maybe, ⟨6, 14⟩⟩] =
    [none, none, some (.mismatchedClose .square ⟨5, 6⟩ ⟨.paren, .ifHead, ⟨1, 5⟩⟩),
      some (.mismatchedClose .paren ⟨6, 14⟩ ⟨.curly, .openCurly, ⟨0, 1⟩⟩)] := by decide

/-! ## Conditions and their parentheses -/

/-- If the last construct that is not a space is `if (`, the innermost open bracket is the
parenthesis that it has opened. -/
def Coupled (n : Nesting) (seen : List (Located Construct)) : Prop :=
  ∀ d, n.previous = some d → d.value = .ifHead →
    ∃ before c spaces k, seen = before ++ c :: spaces ∧ c.value = .ifHead ∧ c.span = d.span ∧
      (∀ s ∈ spaces, s.value = .space) ∧ visitAll {} before = .ok k ∧
      n.opened = .of .paren c :: k.opened

theorem Coupled.visit (h : n.Coupled p) (hp : visitAll {} p = .ok n)
    (hvisit : n.visit c = (m, none)) : m.Coupled (p ++ [c]) := by
  intro d hd hif
  by_cases hspace : c.value = .space
  · rw [visit_space hspace] at hvisit
    obtain ⟨rfl, -⟩ := Prod.mk.inj hvisit
    obtain ⟨before, e, spaces, k, rfl, he, hspan, hspaces, hbefore, hopened⟩ := h d hd hif
    refine ⟨before, e, spaces ++ [c], k, by simp, he, hspan, ?_, hbefore, hopened⟩
    rw [List.forall_mem_append, List.forall_mem_singleton]
    exact ⟨hspaces, hspace⟩
  · -- The construct is now the last one, so it is `if (` itself.
    rw [previous_of_visit hvisit, if_neg hspace] at hd
    obtain rfl := Option.some.inj hd
    have hc : c.value = .ifHead := Construct.tag_eq_ifHead_iff.1 hif
    obtain ⟨k, hfollow, hopened⟩ := exists_follow_of_visit hvisit
    have hpush : n.follow c = (n.push .paren c, none) := by
      rw [follow, hc]
      rfl
    obtain ⟨rfl, -⟩ := Prod.mk.inj (hfollow.symm.trans hpush)
    exact ⟨p, c, [], n, rfl, hc, rfl, by simp, hp, hopened.symm⟩

/-- A walk without faults ends in a state that is coupled. -/
theorem coupled_of_visitAll (h : visitAll {} p = .ok n) : n.Coupled p := by
  induction p using List.reverseRecOn generalizing n with
  | nil =>
    obtain rfl := Except.ok.inj h
    intro d hd
    cases hd
  | append_singleton p c ih =>
    obtain ⟨k, hp, hc⟩ := visitAll_concat.1 h
    exact (ih hp).visit hp hc

/-- In every state of a walk without faults, if the last construct that is not a space is `if (`,
its own parenthesis is the innermost open bracket. So the continuation of a condition can always
close it, and a closing bracket that the check reports never belongs to a continuation. -/
theorem continuation_finds_parenthesis (program : List (Located Construct)) :
    (∀ n, visitAll {} program = .ok n → n.Coupled program ∧
      (n.inCondition = true → ∀ span, ∃ m, n.close .paren span = (m, none))) ∧
    ∀ fault, check program = some fault → fault.diagnostic.code = some .unbalancedClose →
      ∃ before c after n m, program = before ++ c :: after ∧ visitAll {} before = .ok n ∧
        n.visit c = (m, some fault) ∧ fault.diagnostic.marks.head? = some (c.span, true) ∧
        c.value.continuesCondition = false := by
  constructor
  · intro n h
    exact ⟨coupled_of_visitAll h, (tracks_nil.visitAll h).exists_close⟩
  · intro fault hcheck hcode
    rw [check] at hcheck
    split at hcheck
    · -- Brackets that are open at the end are another fault.
      obtain ⟨o, -, rfl⟩ := Option.map_eq_some_iff.1 hcheck
      cases hcode
    · rename_i fault' hvisit
      obtain rfl := Option.some.inj hcheck
      obtain ⟨before, c, after, n, m, rfl, hbefore, hc⟩ := exists_of_visitAll_error hvisit
      refine ⟨before, c, after, n, m, rfl, hbefore, hc, ?_⟩
      have haccuses := (tracks_nil.visitAll hbefore).accuses (follow_of_visit hc)
      rcases haccuses.diagnostic with ⟨-, horphan, -⟩ | ⟨hmisfit, -, hmarks⟩
      · rw [horphan] at hcode
        cases hcode
      · refine ⟨by rw [hmarks, List.head?_cons], ?_⟩
        rw [Bool.eq_false_iff]
        intro hcontinues
        exact not_misfit_of_continues hcontinues hmisfit

end Nesting

end Jawn
