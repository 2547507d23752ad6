import Jawn.Proofs.Balance
import Jawn.Proofs.Refusals

/-!
# Brackets and their partners

In a word of brackets, an opening bracket is closed by the first closing one behind it that has a
balanced word before it, if this one is of the same kind (`ClosedIn`). Those that nothing closes
are the unmatched ones. This says nothing of a stack, but it agrees with one as long as the word
can be read:

* `unmatched_concat_opens`, `unmatched_concat_closes`: one more bracket is unmatched itself, or
  takes away the last unmatched one;
* `Nesting.Tracks`: the check of a strict run keeps exactly the unmatched brackets of the constructs
  before it, and the last of these constructs that is not a space;
* `Nesting.Tracks.accuses`: what it reports of a construct that is misplaced;
* `Nesting.diagnostic_of_check`: so it reports the first construct that is misplaced, and its
  partner, or else the first unmatched bracket.
-/

namespace Jawn

/-! ## Unmatched brackets -/

/-- A bracket that is opened right before a word is closed in it. -/
def ClosedIn (b : Bracket) (word : List Edge) : Prop :=
  ∃ inner rest, word = inner ++ .closes b :: rest ∧ Balanced inner

instance (b : Bracket) (word : List Edge) : Decidable (ClosedIn b word) :=
  decidable_of_iff (∃ i : Fin word.length, word[i] = .closes b ∧ Balanced (word.take i)) <| by
  constructor
  · rintro ⟨i, hi, hinner⟩
    exact ⟨_, word.drop (i + 1), by simp [← hi], hinner⟩
  · rintro ⟨inner, rest, rfl, hinner⟩
    exact ⟨⟨inner.length, by simp⟩, by simp, by simpa using hinner⟩

section

variable {α : Type} {word u v : List (α × Edge)} {b : Bracket} {opened left : List Bracket}

/-- The opening brackets of a word that nothing in it closes, in their order. Each bracket of the
word has a mark. -/
def unmatched : List (α × Edge) → List (α × Bracket)
  | [] => []
  | (a, .opens b) :: word =>
    if ClosedIn b (word.map Prod.snd) then unmatched word else (a, b) :: unmatched word
  | (_, .closes _) :: word => unmatched word

theorem ClosedIn.append {word : List Edge} (h : ClosedIn b word) (more : List Edge) :
    ClosedIn b (word ++ more) := by
  obtain ⟨inner, rest, rfl, hinner⟩ := h
  exact ⟨inner, rest ++ more, by simp, hinner⟩

theorem closedIn_concat {word : List Edge} {e : Edge} :
    ClosedIn b (word ++ [e]) ↔ ClosedIn b word ∨ e = .closes b ∧ Balanced word := by
  constructor
  · rintro ⟨inner, rest, heq, hinner⟩
    rcases concat_eq_append_cons heq with ⟨rfl, rfl⟩ | ⟨rest, heq⟩
    · exact .inr ⟨rfl, hinner⟩
    · exact .inl ⟨inner, rest, heq, hinner⟩
  · rintro (h | ⟨rfl, h⟩)
    · exact h.append [e]
    · exact ⟨word, [], rfl, h⟩

theorem unmatched_append_of_nil (h : unmatched u = []) (v : List (α × Edge)) :
    unmatched (u ++ v) = unmatched v := by
  induction u with
  | nil => rfl
  | cons x u ih =>
    obtain ⟨a, b | b⟩ := x
    · rw [unmatched] at h
      split at h
      · rename_i hclosed
        rw [List.cons_append, unmatched, List.map_append, if_pos (hclosed.append _), ih h]
      · cases h
    · exact ih h

theorem unmatched_suffix (u v : List (α × Edge)) : unmatched v <:+ unmatched (u ++ v) := by
  induction u with
  | nil => exact List.suffix_refl _
  | cons x u ih =>
    obtain ⟨a, b | b⟩ := x
    · rw [List.cons_append, unmatched]
      split
      · exact ih
      · exact ih.trans (List.suffix_cons ..)
    · exact ih

/-- A word that can be read until nothing is left open has no unmatched brackets. -/
theorem unmatched_of_settle (h : settle opened (word.map Prod.snd) = some []) :
    unmatched word = [] := by
  induction word generalizing opened with
  | nil => rfl
  | cons x word ih =>
    obtain ⟨a, b | b⟩ := x
    · rw [List.map_cons, settle] at h
      obtain ⟨inner, rest, heq, hinner, -⟩ := unwinds_of_settle h
      rw [unmatched, if_pos ⟨inner, rest, heq, hinner⟩, ih h]
    · cases opened with
      | nil => cases h
      | cons k opened =>
        rw [List.map_cons, settle] at h
        split at h
        · exact ih h
        · cases h

/-- A word without unmatched brackets only closes brackets, with balanced words between. -/
theorem exists_unwinds (word : List (α × Edge)) (h : unmatched word = []) :
    ∃ opened, Unwinds opened (word.map Prod.snd) := by
  match word with
  | [] => exact ⟨[], .nil⟩
  | (_, .closes b) :: word =>
    obtain ⟨opened, hopened⟩ := exists_unwinds word h
    exact ⟨b :: opened, [], _, rfl, .nil, hopened⟩
  | (_, .opens b) :: word =>
    rw [unmatched] at h
    split at h
    · rename_i hclosed
      obtain ⟨inner, rest, heq, hinner⟩ := hclosed
      obtain ⟨front, back, rfl, rfl, hback⟩ := List.map_eq_append_iff.1 heq
      obtain ⟨x, back, rfl, hx, rfl⟩ := List.map_eq_cons_iff.1 hback
      have hnil : unmatched back = [] := by
        have hsuffix := unmatched_suffix (front ++ [x]) back
        rw [List.append_assoc, List.singleton_append, h] at hsuffix
        exact List.suffix_nil.1 hsuffix
      obtain ⟨opened, hopened⟩ := exists_unwinds back hnil
      refine ⟨opened, ?_⟩
      rw [List.map_cons, heq]
      exact unwinds_pair hinner hopened
    · cases h
termination_by word.length

/-- A word that can be read behind an open bracket is balanced, if it neither closes this one nor
leaves another one open. -/
theorem balanced_of_unmatched (h : settle (b :: opened) (word.map Prod.snd) = some left)
    (hclosed : ¬ ClosedIn b (word.map Prod.snd)) (hnil : unmatched word = []) :
    Balanced (word.map Prod.snd) := by
  obtain ⟨ks, hks⟩ := exists_unwinds word hnil
  cases ks with
  | nil => exact hks
  | cons k ks =>
    obtain ⟨inner, rest, heq, hinner, -⟩ := hks
    by_cases hk : b = k
    · exact absurd ⟨inner, rest, hk ▸ heq, hinner⟩ hclosed
    · rw [heq, settle_append_of_balanced hinner, settle, if_neg hk] at h
      cases h

/-- One more opening bracket is unmatched. -/
theorem unmatched_concat_opens (word : List (α × Edge)) (a : α) (b : Bracket) :
    unmatched (word ++ [(a, .opens b)]) = unmatched word ++ [(a, b)] := by
  induction word with
  | nil =>
    have hnot : ¬ ClosedIn b [] := by simp [ClosedIn]
    simp [unmatched, hnot]
  | cons x word ih =>
    obtain ⟨a', k | k⟩ := x
    · have hiff : ClosedIn k ((word ++ [(a, Edge.opens b)]).map Prod.snd) ↔
          ClosedIn k (word.map Prod.snd) := by
        rw [List.map_append, List.map_singleton, closedIn_concat]
        simp
      rw [List.cons_append, unmatched, unmatched, ih]
      simp only [hiff]
      split
      · rfl
      · rfl
    · exact ih

/-- One more closing bracket takes away the last unmatched bracket, if it is of the same kind. -/
theorem unmatched_concat_closes (h : settle opened (word.map Prod.snd) = some left)
    {front : List (α × Bracket)} {a : α} (hlast : unmatched word = front ++ [(a, b)]) (a' : α) :
    unmatched (word ++ [(a', .closes b)]) = front := by
  induction word generalizing opened front with
  | nil => simp [unmatched] at hlast
  | cons x word ih =>
    obtain ⟨c, k | k⟩ := x
    · rw [List.map_cons, settle] at h
      rw [unmatched] at hlast
      rw [List.cons_append, unmatched, List.map_append]
      split at hlast
      · rename_i hclosed
        rw [if_pos (hclosed.append _), ih h hlast]
      · rename_i hclosed
        cases front with
        | nil =>
          -- The bracket is the last one, so what is behind it is balanced.
          obtain ⟨hc, hnil⟩ := List.cons.inj hlast
          obtain ⟨rfl, rfl⟩ := Prod.mk.inj hc
          have hbalanced := balanced_of_unmatched h hclosed hnil
          rw [List.map_singleton, if_pos (closedIn_concat.2 (.inr ⟨rfl, hbalanced⟩)),
            unmatched_append_of_nil hnil]
          rfl
        | cons y front =>
          obtain ⟨rfl, hrest⟩ := List.cons.inj hlast
          have hnot : ¬ ClosedIn k (word.map Prod.snd ++ [.closes b]) := by
            rw [closedIn_concat, not_or]
            refine ⟨hclosed, ?_⟩
            rintro ⟨-, hbalanced⟩
            rw [unmatched_of_settle (balanced_iff.1 hbalanced)] at hrest
            simp at hrest
          rw [List.map_singleton, if_neg hnot, ih h hrest]
    · cases opened with
      | nil => cases h
      | cons k' opened =>
        rw [List.map_cons, settle] at h
        split at h
        · exact ih h hlast
        · cases h

end

/-! ## Constructs that are misplaced -/

/-- A construct that waits for a closing bracket of this kind. -/
def Opener.of (b : Bracket) (c : Located Construct) : Opener :=
  ⟨b, c.value.tag, c.span⟩

/-- The brackets that the constructs of a program stand for, each with its construct. -/
def bracketWord (program : List (Located Construct)) : List (Located Construct × Edge) :=
  program.flatMap fun c => c.value.edges.map fun e => (c, e)

/-- The constructs of a program that leave a bracket open which nothing in the program closes, in
their order. -/
def unmatchedOpeners (program : List (Located Construct)) : List Opener :=
  (unmatched (bracketWord program)).map fun x => .of x.2 x.1

/-- The last construct that is not a space. -/
def lastSeen (program : List (Located Construct)) : Option (Located Construct) :=
  (program.filter (·.value ≠ .space)).getLast?

/-- The continuation of a condition that does not follow `if (`. -/
def Orphan (before : List (Located Construct)) (c : Located Construct) : Prop :=
  c.value.continuesCondition = true ∧ ∀ d ∈ lastSeen before, d.value ≠ .ifHead

/-- A closing bracket of another kind than the innermost unmatched one before it, or with none
before it. -/
def Misfit (before : List (Located Construct)) (c : Located Construct) : Prop :=
  ∃ b, c.value.edges = [.closes b] ∧ ∀ o ∈ (unmatchedOpeners before).getLast?, o.bracket ≠ b

/-- No construct of a program is an orphan or a misfit behind those before it. -/
def Orderly (program : List (Located Construct)) : Prop :=
  ∀ before c after, program = before ++ c :: after → ¬ Orphan before c ∧ ¬ Misfit before c

/-- The construct `c` behind `before` is the first one of a program that is misplaced. -/
structure FirstMisplaced (program before : List (Located Construct)) (c : Located Construct) :
    Prop where
  exists_eq : ∃ after, program = before ++ c :: after
  orderly : Orderly before
  misplaced : Orphan before c ∨ Misfit before c

section

variable {p program before : List (Located Construct)} {c d : Located Construct} {b : Bracket}

theorem bracketWord_concat (p : List (Located Construct)) (c : Located Construct) :
    bracketWord (p ++ [c]) = bracketWord p ++ c.value.edges.map fun e => (c, e) := by
  rw [bracketWord, List.flatMap_append, List.flatMap_singleton]
  rfl

theorem map_snd_bracketWord (p : List (Located Construct)) :
    (bracketWord p).map Prod.snd = (programOf p).edges := by
  induction p with
  | nil => rfl
  | cons c p ih =>
    have hc : (c.value.edges.map fun e => (c, e)).map Prod.snd = c.value.edges := by
      simp [Function.comp_def]
    rw [bracketWord, List.flatMap_cons, List.map_append, hc]
    exact congrArg (c.value.edges ++ ·) ih

theorem unmatchedOpeners_keeps (hc : c.value.edges = []) :
    unmatchedOpeners (p ++ [c]) = unmatchedOpeners p := by
  rw [unmatchedOpeners, bracketWord_concat, hc, List.map_nil, List.append_nil]
  rfl

theorem unmatchedOpeners_opens (hc : c.value.edges = [.opens b]) :
    unmatchedOpeners (p ++ [c]) = unmatchedOpeners p ++ [.of b c] := by
  rw [unmatchedOpeners, bracketWord_concat, hc, List.map_singleton, unmatched_concat_opens,
    List.map_append]
  rfl

/-- Behind a closing bracket of the right kind the last unmatched bracket has its partner. -/
theorem unmatched_closes {left : List Bracket} {front : List Opener} {o : Opener}
    (h : settle [] (programOf p).edges = some left) (hlast : unmatchedOpeners p = front ++ [o]) :
    (unmatched (bracketWord p ++ [(c, .closes o.bracket)])).map (fun x => Opener.of x.2 x.1) =
      front := by
  obtain ⟨xs, ys, heq, rfl, hys⟩ := List.map_eq_append_iff.1 hlast
  obtain ⟨x, rfl, rfl⟩ := List.map_eq_singleton_iff.1 hys
  rw [← map_snd_bracketWord] at h
  exact congrArg _ (unmatched_concat_closes h heq c)

theorem unmatchedOpeners_closes {left : List Bracket} {front : List Opener} {o : Opener}
    (h : settle [] (programOf p).edges = some left) (hlast : unmatchedOpeners p = front ++ [o])
    (hc : c.value.edges = [.closes o.bracket]) : unmatchedOpeners (p ++ [c]) = front := by
  rw [unmatchedOpeners, bracketWord_concat, hc]
  exact unmatched_closes h hlast

theorem unmatchedOpeners_continues {left : List Bracket} {front : List Opener} {o : Opener}
    (h : settle [] (programOf p).edges = some left) (hlast : unmatchedOpeners p = front ++ [o])
    (hc : c.value.edges = [.closes o.bracket, .opens b]) :
    unmatchedOpeners (p ++ [c]) = front ++ [.of b c] := by
  have hword : bracketWord p ++ c.value.edges.map (fun e => (c, e)) =
      bracketWord p ++ [(c, .closes o.bracket)] ++ [(c, .opens b)] := by simp [hc]
  rw [unmatchedOpeners, bracketWord_concat, hword, unmatched_concat_opens, List.map_append,
    unmatched_closes h hlast]
  rfl

theorem lastSeen_concat (p : List (Located Construct)) (c : Located Construct) :
    lastSeen (p ++ [c]) = if c.value = .space then lastSeen p else some c := by
  by_cases hc : c.value = .space <;> simp [lastSeen, hc]

theorem lastVisible_programOf (p : List (Located Construct)) :
    (programOf p).lastVisible = (lastSeen p).map Located.value := by
  induction p using List.reverseRecOn with
  | nil => rfl
  | append_singleton p c ih =>
    have hconcat : programOf (p ++ [c]) = programOf p ++ [c.value] := List.map_append
    rw [hconcat, Program.lastVisible_concat, lastSeen_concat, ih]
    split
    · rfl
    · rfl

/-- A condition that has just been started is the innermost unmatched bracket. -/
theorem exists_unmatchedOpeners_of_ifHead (h : lastSeen p = some d) (hd : d.value = .ifHead) :
    ∃ front, unmatchedOpeners p = front ++ [.of .paren d] := by
  induction p using List.reverseRecOn with
  | nil => cases h
  | append_singleton p c ih =>
    rw [lastSeen_concat] at h
    split at h
    · rename_i hspace
      rw [unmatchedOpeners_keeps (by rw [hspace]; rfl)]
      exact ih h
    · obtain rfl := Option.some.inj h
      exact ⟨_, unmatchedOpeners_opens (by rw [hd]; rfl)⟩

theorem not_misfit_of_continues (h : c.value.continuesCondition = true) : ¬ Misfit before c := by
  rintro ⟨b, hc, -⟩
  have hedges := c.value.edges_effect
  rw [(Construct.effect_eq_continues_iff _).2 h, hc] at hedges
  cases hedges

theorem Orphan.not_misfit (h : Orphan before c) : ¬ Misfit before c :=
  not_misfit_of_continues h.1

theorem orderly_nil : Orderly [] := by
  intro before c after h
  simp at h

theorem orderly_concat (hp : Orderly p) (horphan : ¬ Orphan p c) (hmisfit : ¬ Misfit p c) :
    Orderly (p ++ [c]) := by
  intro before d after heq
  rcases concat_eq_append_cons heq with ⟨rfl, rfl⟩ | ⟨after, heq⟩
  · exact ⟨horphan, hmisfit⟩
  · exact hp before d after heq

theorem FirstMisplaced.not_orderly (h : FirstMisplaced program before c) : ¬ Orderly program := by
  intro horderly
  obtain ⟨after, heq⟩ := h.exists_eq
  exact h.misplaced.elim (horderly _ _ _ heq).1 (horderly _ _ _ heq).2

theorem FirstMisplaced.unique {before' : List (Located Construct)} {c' : Located Construct}
    (h : FirstMisplaced program before c) (h' : FirstMisplaced program before' c') :
    before' = before ∧ c' = c := by
  obtain ⟨after, rfl⟩ := h.exists_eq
  obtain ⟨after', heq⟩ := h'.exists_eq
  rcases List.append_eq_append_iff.1 heq with ⟨mid, rfl, hmid⟩ | ⟨mid, rfl, hmid⟩
  · cases mid with
    | nil => simp_all
    | cons x mid =>
      obtain ⟨rfl, -⟩ := List.cons.inj hmid
      exact absurd h'.orderly (FirstMisplaced.not_orderly ⟨⟨mid, rfl⟩, h.orderly, h.misplaced⟩)
  · cases mid with
    | nil => simp_all
    | cons x mid =>
      obtain ⟨rfl, -⟩ := List.cons.inj hmid
      exact absurd h.orderly (FirstMisplaced.not_orderly ⟨⟨mid, rfl⟩, h'.orderly, h'.misplaced⟩)

end

/-! ## The walk over a program -/

namespace Nesting

variable {n m : Nesting} {seen program : List (Located Construct)} {c : Located Construct}
  {b : Bracket} {span : Span} {fault : Fault}

theorem opened_of_close (h : n.close b span = (m, none)) :
    ∃ o, o.bracket = b ∧ n.opened = o :: m.opened := by
  rw [close] at h
  split at h
  · cases h
  · rename_i o rest hopened
    obtain ⟨rfl, hnone⟩ := Prod.mk.inj h
    split at hnone
    · rename_i hb
      exact ⟨o, hb, hopened⟩
    · cases hnone

/-- A closing bracket at fault finds nothing open, or it takes away a bracket of another kind. -/
theorem fault_of_close (h : n.close b span = (m, some fault)) :
    (n.opened = [] ∧ m = n ∧ fault = .strayClose b span) ∨
      ∃ o rest, n.opened = o :: rest ∧ o.bracket ≠ b ∧ m = { n with opened := rest } ∧
        fault = .mismatchedClose b span o := by
  rw [close] at h
  split at h
  · rename_i hopened
    obtain ⟨hm, hfault⟩ := Prod.mk.inj h
    exact .inl ⟨hopened, hm.symm, (Option.some.inj hfault).symm⟩
  · rename_i o rest hopened
    obtain ⟨hm, hfault⟩ := Prod.mk.inj h
    split at hfault
    · cases hfault
    · rename_i hb
      exact .inr ⟨o, rest, hopened, hb, hm.symm, (Option.some.inj hfault).symm⟩

theorem exists_follow_of_visit (h : n.visit c = (m, none)) :
    ∃ k, n.follow c = (k, none) ∧ k.opened = m.opened := by
  rw [visit] at h
  split at h
  · rename_i k hfollow
    obtain ⟨rfl, -⟩ := Prod.mk.inj h
    refine ⟨k, hfollow, ?_⟩
    split
    · rfl
    · rfl
  · rename_i hfaulty
    exact absurd h (hfaulty m)

theorem follow_of_visit (h : n.visit c = (m, some fault)) : n.follow c = (m, some fault) := by
  rw [visit] at h
  split at h
  · cases h
  · exact h

/-- What the check reports of a construct behind others. -/
inductive Accuses (before : List (Located Construct)) (c : Located Construct) : Fault → Prop where
  | orphan (h : Orphan before c) :
    Accuses before c (.orphanCondition ⟨c.value.tag, c.span⟩
      ((lastSeen before).map fun d => ⟨d.value.tag, d.span⟩))
  | stray {b : Bracket} (hc : c.value.edges = [.closes b]) (h : unmatchedOpeners before = []) :
    Accuses before c (.strayClose b c.span)
  | mismatch {b : Bracket} {front : List Opener} {o : Opener} (hc : c.value.edges = [.closes b])
      (h : unmatchedOpeners before = front ++ [o]) (hb : o.bracket ≠ b) :
    Accuses before c (.mismatchedClose b c.span o)

/-- The state holds the unmatched brackets of the constructs that have been visited, the innermost
first, and the last of these constructs that is not a space. None of them is misplaced. -/
structure Tracks (n : Nesting) (seen : List (Located Construct)) : Prop where
  walked : n.Walked (programOf seen)
  opened : n.opened = (unmatchedOpeners seen).reverse
  previous : n.previous = (lastSeen seen).map fun d => ⟨d.value.tag, d.span⟩
  orderly : Orderly seen

theorem tracks_nil : Tracks {} [] :=
  ⟨walked_nil, rfl, rfl, orderly_nil⟩

namespace Tracks

theorem unmatchedOpeners_eq (h : n.Tracks seen) : unmatchedOpeners seen = n.opened.reverse := by
  rw [h.opened, List.reverse_reverse]

theorem inCondition_iff (h : n.Tracks seen) :
    n.inCondition = true ↔ ∃ d, lastSeen seen = some d ∧ d.value = .ifHead := by
  rw [h.walked.inCondition_iff, lastVisible_programOf, Option.map_eq_some_iff]

/-- Where a condition has just been started, its parenthesis can be closed. -/
theorem exists_close (h : n.Tracks seen) (hcondition : n.inCondition = true) (span : Span) :
    ∃ m, n.close .paren span = (m, none) := by
  obtain ⟨d, hlast, hd⟩ := h.inCondition_iff.1 hcondition
  obtain ⟨front, hfront⟩ := exists_unmatchedOpeners_of_ifHead hlast hd
  have hopened : n.opened = .of .paren d :: front.reverse := by simp [h.opened, hfront]
  refine ⟨{ n with opened := front.reverse }, ?_⟩
  rw [close]
  simp [hopened, Opener.of]

/-- A construct that is followed without a fault is not misplaced. -/
theorem not_misplaced (h : n.Tracks seen) (hfollow : n.follow c = (m, none)) :
    ¬ Orphan seen c ∧ ¬ Misfit seen c := by
  have hedges := c.value.edges_effect
  constructor
  · rintro ⟨hcontinues, hlast⟩
    have hcondition : n.inCondition = true := by
      by_contra hnot
      rw [follow, (Construct.effect_eq_continues_iff _).2 hcontinues] at hfollow
      simp only [hnot, Bool.false_eq_true, if_false] at hfollow
      cases hfollow
    obtain ⟨d, hd, hif⟩ := h.inCondition_iff.1 hcondition
    exact hlast d hd hif
  · rintro ⟨b, hc, hlast⟩
    rw [hc] at hedges
    rw [follow] at hfollow
    cases heffect : c.value.effect with
    | closes b' =>
      rw [heffect] at hedges hfollow
      obtain ⟨o, hb, hopened⟩ := opened_of_close hfollow
      refine hlast o ?_ ?_
      · simp [h.unmatchedOpeners_eq, hopened]
      · rw [hb]
        simpa [Effect.edges] using hedges
    | _ =>
      rw [heffect] at hedges
      cases hedges

/-- The open brackets behind a construct are those that are unmatched behind it. -/
theorem opened_of_follow (h : n.Tracks seen) (hfollow : n.follow c = (m, none)) :
    m.opened = (unmatchedOpeners (seen ++ [c])).reverse := by
  have hsettle := h.walked.kinds
  have hedges := c.value.edges_effect
  rw [follow] at hfollow
  cases heffect : c.value.effect with
  | keeps =>
    rw [heffect] at hfollow hedges
    obtain ⟨rfl, -⟩ := Prod.mk.inj hfollow
    rw [unmatchedOpeners_keeps hedges.symm, h.opened]
  | opens b =>
    rw [heffect] at hfollow hedges
    obtain ⟨rfl, -⟩ := Prod.mk.inj hfollow
    rw [unmatchedOpeners_opens hedges.symm, List.reverse_concat, ← h.opened]
    rfl
  | closes b =>
    rw [heffect] at hfollow hedges
    obtain ⟨o, rfl, hopened⟩ := opened_of_close hfollow
    have hlast : unmatchedOpeners seen = m.opened.reverse ++ [o] := by
      rw [h.unmatchedOpeners_eq, hopened, List.reverse_cons]
    rw [unmatchedOpeners_closes hsettle hlast hedges.symm, List.reverse_reverse]
  | continues =>
    rw [heffect] at hfollow hedges
    simp only at hfollow
    split at hfollow
    · split at hfollow
      · rename_i k hclose
        obtain ⟨o, hb, hopened⟩ := opened_of_close hclose
        have hlast : unmatchedOpeners seen = k.opened.reverse ++ [o] := by
          rw [h.unmatchedOpeners_eq, hopened, List.reverse_cons]
        have hc : c.value.edges = [.closes o.bracket, .opens .curly] := by
          rw [hb]
          exact hedges.symm
        obtain ⟨rfl, -⟩ := Prod.mk.inj hfollow
        rw [unmatchedOpeners_continues hsettle hlast hc, List.reverse_concat,
          List.reverse_reverse]
        rfl
      · rename_i hfaulty
        exact absurd hfollow (hfaulty m)
    · cases hfollow

theorem visit (h : n.Tracks seen) (hvisit : n.visit c = (m, none)) : m.Tracks (seen ++ [c]) := by
  obtain ⟨k, hfollow, hopened⟩ := exists_follow_of_visit hvisit
  obtain ⟨horphan, hmisfit⟩ := h.not_misplaced hfollow
  have hprogram : programOf (seen ++ [c]) = programOf seen ++ [c.value] := List.map_append
  refine ⟨hprogram ▸ h.walked.visit hvisit, ?_, ?_, orderly_concat h.orderly horphan hmisfit⟩
  · rw [← hopened, h.opened_of_follow hfollow]
  · rw [previous_of_visit hvisit, lastSeen_concat, h.previous]
    split
    · rfl
    · rfl

/-- What the check reports of the construct that it stops at. -/
theorem accuses (h : n.Tracks seen) (hfollow : n.follow c = (m, some fault)) :
    Accuses seen c fault := by
  have hedges := c.value.edges_effect
  rw [follow] at hfollow
  cases heffect : c.value.effect with
  | keeps =>
    rw [heffect] at hfollow
    cases hfollow
  | opens b =>
    rw [heffect] at hfollow
    cases hfollow
  | closes b =>
    rw [heffect] at hfollow hedges
    rcases fault_of_close hfollow with ⟨hopened, -, rfl⟩ | ⟨o, rest, hopened, hb, -, rfl⟩
    · exact .stray hedges.symm (by rw [h.unmatchedOpeners_eq, hopened, List.reverse_nil])
    · exact .mismatch hedges.symm (by rw [h.unmatchedOpeners_eq, hopened, List.reverse_cons]) hb
  | continues =>
    rw [heffect] at hfollow
    simp only at hfollow
    split at hfollow
    · -- The parenthesis of the condition is there to be closed.
      rename_i hcondition
      obtain ⟨k, hclose⟩ := h.exists_close hcondition c.span
      rw [hclose] at hfollow
      cases hfollow
    · rename_i hcondition
      obtain ⟨-, hfault⟩ := Prod.mk.inj hfollow
      obtain rfl := Option.some.inj hfault
      rw [h.previous]
      refine .orphan ⟨(Construct.effect_eq_continues_iff _).1 heffect, fun d hd hif => ?_⟩
      exact hcondition (h.inCondition_iff.2 ⟨d, hd, hif⟩)

theorem visitAll (h : n.Tracks seen) (hvisit : n.visitAll program = .ok m) :
    m.Tracks (seen ++ program) :=
  visitAll_induction (motive := Tracks) (fun _ _ _ _ hn hc => hn.visit hc) h hvisit

/-- The walk stops at the first construct that it has something to report of. -/
theorem accuses_of_visitAll (h : n.Tracks seen) (hvisit : n.visitAll program = .error fault) :
    ∃ before c after, program = before ++ c :: after ∧ Orderly (seen ++ before) ∧
      Accuses (seen ++ before) c fault := by
  obtain ⟨before, c, after, k, m, rfl, hbefore, hc⟩ := exists_of_visitAll_error hvisit
  have htracks := h.visitAll hbefore
  exact ⟨before, c, after, rfl, htracks.orderly, htracks.accuses (follow_of_visit hc)⟩

end Tracks

/-! ## The fault that is reported -/

/-- A construct that is reported is misplaced. It is marked itself, and with it the construct that
stands in the way. -/
theorem Accuses.diagnostic {before : List (Located Construct)} (h : Accuses before c fault) :
    (Orphan before c ∧ fault.diagnostic.code = some .orphanCondition ∧
      fault.diagnostic.marks =
        (c.span, true) :: ((lastSeen before).map fun d => (d.span, false)).toList) ∨
    (Misfit before c ∧ fault.diagnostic.code = some .unbalancedClose ∧
      fault.diagnostic.marks = (c.span, true) ::
        ((unmatchedOpeners before).getLast?.map fun o => (o.span, false)).toList) := by
  cases h with
  | orphan h =>
    refine .inl ⟨h, rfl, ?_⟩
    cases lastSeen before with
    | none => rfl
    | some d => rfl
  | @stray b hc h => exact .inr ⟨⟨b, hc, by simp [h]⟩, rfl, by rw [h]; rfl⟩
  | @mismatch b front o hc h hb =>
    have hlast : (unmatchedOpeners before).getLast? = some o := by rw [h, List.getLast?_concat]
    exact .inr ⟨⟨b, hc, by simp [hlast, hb]⟩, rfl, by rw [hlast]; rfl⟩

/-- The check reports the first construct that is misplaced. If that is the continuation of a
condition, the last construct before it that is not a space is marked with it; if it is a closing
bracket, the innermost unmatched bracket is. If no construct is misplaced, the first of all
unmatched brackets is reported, with their number. -/
theorem diagnostic_of_check {program : List (Located Construct)} {fault : Fault}
    (h : check program = some fault) :
    (∀ before c, FirstMisplaced program before c →
      (Orphan before c → fault.diagnostic.code = some .orphanCondition ∧
        fault.diagnostic.marks =
          (c.span, true) :: ((lastSeen before).map fun d => (d.span, false)).toList) ∧
      (Misfit before c → fault.diagnostic.code = some .unbalancedClose ∧
        fault.diagnostic.marks = (c.span, true) ::
          ((unmatchedOpeners before).getLast?.map fun o => (o.span, false)).toList)) ∧
    (Orderly program → ∃ o count, (unmatchedOpeners program).head? = some o ∧
      (unmatchedOpeners program).length = count ∧
      fault.diagnostic.code = some .unclosedConstruct ∧
      fault.diagnostic.marks = [(o.span, true)] ∧
      fault.diagnostic.help =
        some s!"add a matching `{o.bracket.close}` ({count} construct(s) still open)") := by
  rw [check] at h
  split at h
  · rename_i n hvisit
    have htracks := tracks_nil.visitAll hvisit
    rw [List.nil_append] at htracks
    refine ⟨fun before c hfirst => absurd htracks.orderly hfirst.not_orderly, fun _ => ?_⟩
    rw [finish, htracks.opened, List.getLast?_reverse, List.length_reverse] at h
    obtain ⟨o, hhead, rfl⟩ := Option.map_eq_some_iff.1 h
    exact ⟨o, _, hhead, rfl, rfl, rfl, rfl⟩
  · rename_i fault' hvisit
    obtain rfl := Option.some.inj h
    obtain ⟨before, c, after, hprogram, horderly, haccuses⟩ :=
      tracks_nil.accuses_of_visitAll hvisit
    rw [List.nil_append] at horderly haccuses
    have hfirst : FirstMisplaced program before c :=
      ⟨⟨after, hprogram⟩, horderly, haccuses.diagnostic.imp And.left And.left⟩
    refine ⟨fun before' c' hfirst' => ?_, fun hprogram => absurd hprogram hfirst.not_orderly⟩
    obtain ⟨rfl, rfl⟩ := hfirst.unique hfirst'
    rcases haccuses.diagnostic with ⟨horphan, hreport⟩ | ⟨hmisfit, hreport⟩
    · exact ⟨fun _ => hreport, fun hmisfit => absurd hmisfit horphan.not_misfit⟩
    · exact ⟨fun horphan => absurd hmisfit horphan.not_misfit, fun _ => hreport⟩

/-- The partner of the square bracket is the continuation: it has closed the parenthesis of its
condition and waits for a curly bracket. -/
theorem diagnostic_of_check_continuation :
    ∃ fault, check [⟨.ifHead, ⟨0, 4⟩⟩, ⟨.maybe, ⟨4, 12⟩⟩, ⟨.closeSquare, ⟨12, 13⟩⟩] = some fault ∧
      fault.diagnostic.code = some .unbalancedClose ∧
      fault.diagnostic.marks = [(⟨12, 13⟩, true), (⟨4, 12⟩, false)] := by
  have hbefore : visitAll {} [⟨.ifHead, ⟨0, 4⟩⟩, ⟨.maybe, ⟨4, 12⟩⟩] =
      .ok ⟨[⟨.curly, .maybe, ⟨4, 12⟩⟩], some ⟨.maybe, ⟨4, 12⟩⟩⟩ := rfl
  have hopeners : unmatchedOpeners [⟨.ifHead, ⟨0, 4⟩⟩, ⟨.maybe, ⟨4, 12⟩⟩] =
      [⟨.curly, .maybe, ⟨4, 12⟩⟩] := by decide
  have hmisfit : Misfit [⟨.ifHead, ⟨0, 4⟩⟩, ⟨.maybe, ⟨4, 12⟩⟩] ⟨.closeSquare, ⟨12, 13⟩⟩ :=
    ⟨.square, rfl, by simp [hopeners]⟩
  refine ⟨_, rfl, ?_⟩
  obtain ⟨hfirst, -⟩ := @diagnostic_of_check
    [⟨.ifHead, ⟨0, 4⟩⟩, ⟨.maybe, ⟨4, 12⟩⟩, ⟨.closeSquare, ⟨12, 13⟩⟩] _ rfl
  have hreport := (hfirst _ _ ⟨⟨[], rfl⟩, (tracks_nil.visitAll hbefore).orderly, .inr hmisfit⟩).2
  simpa [hopeners] using hreport hmisfit

end Nesting

end Jawn
