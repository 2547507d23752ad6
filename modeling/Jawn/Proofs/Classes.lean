import Jawn.Lexical
import Jawn.Pattern.Language

/-!
# The texts of a pattern, case by case

`Pattern.Matches` is an inductive relation. Here each of its cases is an equivalence, so that a
proof that a text is in a language can be taken apart by rewriting. The letters and digits that
classes are made of are disjoint ranges.
-/

namespace Jawn.Pattern

/-- A text is in the language of a pattern. -/
def Accepts (p : Pattern) (text : String) : Prop :=
  p.Matches text.toList

variable {p q : Pattern} {ok : Char → Bool} {s t : List Char}

theorem matches_text : (Pattern.text t).Matches s ↔ s = t := by
  constructor
  · rintro ⟨⟩
    rfl
  · rintro rfl
    exact .text s

theorem matches_one : (Pattern.one ok).Matches s ↔ ∃ c, ok c = true ∧ s = [c] := by
  constructor
  · intro h
    cases h with
    | one hc => exact ⟨_, hc, rfl⟩
  · rintro ⟨c, hc, rfl⟩
    exact .one hc

theorem matches_many : (Pattern.many ok).Matches s ↔ ∀ c ∈ s, ok c = true := by
  constructor
  · intro h
    cases h with
    | many hs => exact hs
  · exact .many

theorem matches_seq :
    (Pattern.seq p q).Matches s ↔ ∃ a b, p.Matches a ∧ q.Matches b ∧ s = a ++ b := by
  constructor
  · intro h
    cases h with
    | seq ha hb => exact ⟨_, _, ha, hb, rfl⟩
  · rintro ⟨a, b, ha, hb, rfl⟩
    exact .seq ha hb

theorem matches_alt : (Pattern.alt p q).Matches s ↔ p.Matches s ∨ q.Matches s := by
  constructor
  · intro h
    cases h with
    | altLeft hp => exact .inl hp
    | altRight hq => exact .inr hq
  · rintro (hp | hq)
    · exact .altLeft hp
    · exact .altRight hq

theorem matches_optional : (optional p).Matches s ↔ p.Matches s ∨ s = [] := by
  rw [optional, matches_alt, matches_text]

/-- The texts of a finite choice are the texts to choose from. -/
theorem matches_anyOf {texts : List String} :
    (anyOf texts).Matches s ↔ ∃ t ∈ texts, s = t.toList := by
  induction texts with
  | nil => simp [anyOf, fail, matches_one]
  | cons t texts ih =>
    rw [anyOf, List.foldr_cons, ← anyOf, matches_alt, matches_text, ih]
    simp

/-- A character of one class and then any number of another. -/
theorem matches_leading {ok' : Char → Bool} :
    (Pattern.seq (.one ok) (.many ok')).Matches s ↔
      ∃ c r, ok c = true ∧ (∀ d ∈ r, ok' d = true) ∧ s = c :: r := by
  rw [matches_seq]
  constructor
  · rintro ⟨_, r, ha, hr, rfl⟩
    obtain ⟨c, hc, rfl⟩ := matches_one.1 ha
    exact ⟨c, r, hc, matches_many.1 hr, rfl⟩
  · rintro ⟨c, r, hc, hr, rfl⟩
    exact ⟨[c], r, .one hc, .many hr, rfl⟩

theorem matches_iff_nil_mem_ends : p.Matches t ↔ [] ∈ p.ends t := by
  rw [mem_ends]
  simp

instance (p : Pattern) (t : List Char) : Decidable (p.Matches t) :=
  decidable_of_iff _ matches_iff_nil_mem_ends.symm

instance (p : Pattern) (text : String) : Decidable (p.Accepts text) :=
  inferInstanceAs (Decidable (p.Matches text.toList))

/-! ## Letters and digits -/

section

variable {c : Char}

theorem isLower_iff : c.isLower = true ↔ 97 ≤ c.val ∧ c.val ≤ 122 :=
  Bool.and_eq_true_iff.trans (and_congr decide_eq_true_iff decide_eq_true_iff)

theorem isUpper_iff : c.isUpper = true ↔ 65 ≤ c.val ∧ c.val ≤ 90 :=
  decide_eq_true_iff

theorem isDigit_iff : c.isDigit = true ↔ 48 ≤ c.val ∧ c.val ≤ 57 :=
  Bool.and_eq_true_iff.trans (and_congr decide_eq_true_iff decide_eq_true_iff)

theorem isUpper_of_isLower (h : c.isLower = true) : c.isUpper = false := by
  rw [Bool.eq_false_iff, Ne, isUpper_iff]
  intro hupper
  exact absurd (UInt32.le_trans (isLower_iff.1 h).1 hupper.2) (by decide)

theorem isLower_of_isDigit (h : c.isDigit = true) : c.isLower = false := by
  rw [Bool.eq_false_iff, Ne, isLower_iff]
  intro hlower
  exact absurd (UInt32.le_trans hlower.1 (isDigit_iff.1 h).2) (by decide)

theorem isUpper_of_isDigit (h : c.isDigit = true) : c.isUpper = false := by
  rw [Bool.eq_false_iff, Ne, isUpper_iff]
  intro hupper
  exact absurd (UInt32.le_trans hupper.1 (isDigit_iff.1 h).2) (by decide)

end

/-! ## Characters of a text -/

/-- The characters that can stand in a text of the pattern. -/
def allows : Pattern → Char → Bool
  | .text t, c => t.contains c
  | .one ok, c | .many ok, c => ok c
  | .seq p q, c | .alt p q, c => p.allows c || q.allows c
  | .star p, c => p.allows c

theorem allows_of_matches (h : p.Matches t) : ∀ c ∈ t, p.allows c = true := by
  induction h with
  | text t => simp [allows]
  | one hc => simpa [allows] using hc
  | many ht => exact ht
  | seq _ _ ihp ihq =>
    rw [List.forall_mem_append]
    exact ⟨fun c hc => by simp [allows, ihp c hc], fun c hc => by simp [allows, ihq c hc]⟩
  | altLeft _ ih => exact fun c hc => by simp [allows, ih c hc]
  | altRight _ ih => exact fun c hc => by simp [allows, ih c hc]
  | starNil => simp
  | starCons _ _ iht ihu =>
    rw [List.forall_mem_append]
    exact ⟨iht, ihu⟩

theorem not_mem_of_matches {c : Char} (h : p.Matches t) (hc : p.allows c = false) : c ∉ t := by
  intro hmem
  rw [allows_of_matches h c hmem] at hc
  cases hc

end Jawn.Pattern
