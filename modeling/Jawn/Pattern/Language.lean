import Jawn.Pattern

/-!
# The language of a pattern

`Pattern.Matches` says which texts a pattern describes, with no order among them. Trying a pattern
finds exactly these texts:

* `mem_ends`: a text is left behind a match if and only if what stands before it is in the language.
-/

namespace Jawn.Pattern

/-- The language of a pattern. -/
inductive Matches : Pattern → List Char → Prop where
  | text (t : List Char) : Matches (.text t) t
  | one {ok : Char → Bool} {c : Char} (h : ok c = true) : Matches (.one ok) [c]
  | many {ok : Char → Bool} {t : List Char} (h : ∀ c ∈ t, ok c = true) : Matches (.many ok) t
  | seq {p q : Pattern} {t u : List Char} (hp : Matches p t) (hq : Matches q u) :
    Matches (.seq p q) (t ++ u)
  | altLeft {p q : Pattern} {t : List Char} (h : Matches p t) : Matches (.alt p q) t
  | altRight {p q : Pattern} {t : List Char} (h : Matches q t) : Matches (.alt p q) t
  | starNil {p : Pattern} : Matches (.star p) []
  | starCons {p : Pattern} {t u : List Char} (ht : Matches p t) (hu : Matches (.star p) u) :
    Matches (.star p) (t ++ u)

theorem mem_runEnds {ok : Char → Bool} {s r : List Char} {shorter : List (List Char)} :
    r ∈ runEnds ok s shorter ↔ r ∈ shorter ∨ ∃ t, s = t ++ r ∧ ∀ c ∈ t, ok c = true := by
  fun_induction runEnds ok s shorter with
  | case1 shorter =>
    simp only [List.mem_cons]
    constructor
    · rintro (rfl | h)
      · exact .inr ⟨[], rfl, by simp⟩
      · exact .inl h
    · rintro (h | ⟨t, h, _⟩)
      · exact .inr h
      · exact .inl (List.append_eq_nil_iff.1 h.symm).2
  | case2 c rest shorter hc ih =>
    rw [ih, List.mem_cons]
    constructor
    · rintro ((rfl | h) | ⟨t, rfl, ht⟩)
      · exact .inr ⟨[], rfl, by simp⟩
      · exact .inl h
      · exact .inr ⟨c :: t, rfl, by simpa using ⟨hc, ht⟩⟩
    · rintro (h | ⟨t, h, ht⟩)
      · exact .inl (.inr h)
      · cases t with
        | nil => exact .inl (.inl h.symm)
        | cons d t =>
          obtain ⟨rfl, rfl⟩ := List.cons.inj h
          exact .inr ⟨t, rfl, fun x hx => ht x (List.mem_cons_of_mem _ hx)⟩
  | case3 c rest shorter hc =>
    rw [List.mem_cons]
    constructor
    · rintro (rfl | h)
      · exact .inr ⟨[], rfl, by simp⟩
      · exact .inl h
    · rintro (h | ⟨t, h, ht⟩)
      · exact .inr h
      · cases t with
        | nil => exact .inl h.symm
        | cons d t =>
          obtain ⟨rfl, rfl⟩ := List.cons.inj h
          exact absurd (ht c (List.mem_cons_self ..)) hc

/-- Induction over the rounds of a repetition. -/
theorem Matches.star_induction {p : Pattern} {motive : List Char → Prop} {t : List Char}
    (h : Matches (.star p) t) (nil : motive [])
    (cons : ∀ a b, Matches p a → Matches (.star p) b → motive b → motive (a ++ b)) : motive t := by
  generalize hq : Pattern.star p = q at h
  induction h with
  | starNil => exact nil
  | @starCons p' a b ha hb _ ih =>
    obtain rfl := Pattern.star.inj hq
    exact cons a b ha hb (ih rfl)
  | _ => cases hq

theorem Matches.star_append {p : Pattern} {t u : List Char} (ht : Matches (.star p) t)
    (hu : Matches (.star p) u) : Matches (.star p) (t ++ u) := by
  refine ht.star_induction (motive := fun t => Matches (.star p) (t ++ u)) hu fun a b ha _ ih => ?_
  rw [List.append_assoc]
  exact .starCons ha ih

/-- The first round of a repetition that takes anything. -/
theorem Matches.star_cases {p : Pattern} {t : List Char} (h : Matches (.star p) t) :
    t = [] ∨ ∃ a b, t = a ++ b ∧ a ≠ [] ∧ Matches p a ∧ Matches (.star p) b := by
  refine h.star_induction (motive := fun t => t = [] ∨
    ∃ a b, t = a ++ b ∧ a ≠ [] ∧ Matches p a ∧ Matches (.star p) b) ?_ ?_
  · exact .inl rfl
  · intro a b ha hb ih
    by_cases hnil : a = []
    · subst hnil
      exact ih
    · exact .inr ⟨a, b, rfl, hnil, ha, hb⟩

theorem mem_rounds {p : Pattern} {n : Nat} {s r : List Char} (hn : s.length ≤ n)
    (hp : ∀ s r, r ∈ p.ends s ↔ ∃ t, s = t ++ r ∧ p.Matches t) :
    r ∈ rounds p.ends n s ↔ ∃ t, s = t ++ r ∧ Matches (.star p) t := by
  constructor
  · clear hn
    intro h
    induction n generalizing s with
    | zero => exact ⟨[], by simpa using (List.mem_singleton.1 h).symm, .starNil⟩
    | succ n ih =>
      rcases List.mem_append.1 h with h | h
      · obtain ⟨u, hu, hr⟩ := List.mem_flatMap.1 h
        obtain ⟨a, rfl, ha⟩ := (hp _ _).1 hu
        obtain ⟨b, rfl, hb⟩ := ih hr
        exact ⟨a ++ b, by simp, .starCons ha hb⟩
      · exact ⟨[], by simpa using (List.mem_singleton.1 h).symm, .starNil⟩
  · rintro ⟨t, rfl, ht⟩
    induction n generalizing t with
    | zero =>
      obtain ⟨rfl, rfl⟩ : t = [] ∧ r = [] := by simpa using hn
      simp [rounds]
    | succ n ih =>
      rw [rounds, List.mem_append]
      rcases ht.star_cases with rfl | ⟨a, b, rfl, ha, hpa, hb⟩
      · exact .inr (by simp)
      · refine .inl (List.mem_flatMap.2 ⟨b ++ r, (hp _ _).2 ⟨a, by simp, hpa⟩, ih b hb ?_⟩)
        have := List.length_pos_iff.2 ha
        simp only [List.length_append] at hn ⊢
        omega

/-- A text is left behind a match if and only if what stands before it is in the language. -/
theorem mem_ends {p : Pattern} {s r : List Char} :
    r ∈ p.ends s ↔ ∃ t, s = t ++ r ∧ p.Matches t := by
  induction p generalizing s r with
  | text t =>
    rw [ends]
    split
    · rename_i h
      rw [List.isPrefixOf_iff_prefix] at h
      obtain ⟨u, rfl⟩ := h
      simp only [List.drop_left, List.mem_singleton]
      constructor
      · rintro rfl
        exact ⟨t, rfl, .text t⟩
      · rintro ⟨_, h, ⟨⟩⟩
        exact (List.append_cancel_left h).symm
    · rename_i h
      simp only [List.not_mem_nil, false_iff]
      rintro ⟨_, rfl, ⟨⟩⟩
      exact h (List.isPrefixOf_iff_prefix.2 ⟨r, rfl⟩)
  | one ok =>
    cases s with
    | nil =>
      simp only [ends, List.not_mem_nil, false_iff]
      rintro ⟨_, h, ⟨_⟩⟩
      simp at h
    | cons c rest =>
      simp only [ends]
      split
      · rename_i hc
        rw [List.mem_singleton]
        constructor
        · rintro rfl
          exact ⟨[c], rfl, .one hc⟩
        · rintro ⟨_, h, ⟨_⟩⟩
          exact (List.cons.inj h).2.symm
      · rename_i hc
        simp only [List.not_mem_nil, false_iff]
        rintro ⟨_, h, hm⟩
        cases hm with
        | one hd => exact hc ((List.cons.inj h).1 ▸ hd)
  | many ok =>
    rw [ends, mem_runEnds]
    simp only [List.not_mem_nil, false_or]
    constructor
    · rintro ⟨t, h, ht⟩
      exact ⟨t, h, .many ht⟩
    · rintro ⟨t, h, hm⟩
      cases hm with
      | many ht => exact ⟨t, h, ht⟩
  | seq p q ihp ihq =>
    simp only [ends, List.mem_flatMap]
    constructor
    · rintro ⟨u, hu, hr⟩
      obtain ⟨a, rfl, ha⟩ := ihp.1 hu
      obtain ⟨b, rfl, hb⟩ := ihq.1 hr
      exact ⟨a ++ b, by simp, .seq ha hb⟩
    · rintro ⟨_, rfl, h⟩
      cases h with
      | @seq _ _ a b ha hb =>
        exact ⟨b ++ r, ihp.2 ⟨a, by simp, ha⟩, ihq.2 ⟨b, rfl, hb⟩⟩
  | alt p q ihp ihq =>
    simp only [ends, List.mem_append]
    constructor
    · rintro (h | h)
      · obtain ⟨t, rfl, ht⟩ := ihp.1 h
        exact ⟨t, rfl, .altLeft ht⟩
      · obtain ⟨t, rfl, ht⟩ := ihq.1 h
        exact ⟨t, rfl, .altRight ht⟩
    · rintro ⟨t, rfl, h⟩
      cases h with
      | altLeft h => exact .inl (ihp.2 ⟨t, rfl, h⟩)
      | altRight h => exact .inr (ihq.2 ⟨t, rfl, h⟩)
  | star p ih =>
    rw [ends]
    exact mem_rounds (Nat.le_refl _) fun _ _ => ih

end Jawn.Pattern
