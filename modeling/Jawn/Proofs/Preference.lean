import Jawn.Proofs.Form

/-!
# The preferred match

Trying a pattern lists its matches in order of priority, and reading a form goes back to a later one
only if it must. `Pattern.Prefers p u r` says that the first match of `p` at the front of `u ++ r`
is `u`:

* `prefers_many`, `prefers_star`: a repetition prefers to run on until it has to stop;
* `Firm`: a pattern whose matches are preferred whatever follows, such as a quoted string;
* `ReadsAs`: two patterns of which the one can stand for the other in every form;
* `Form.read_cons_of_prefers`: a part of a form is read as the text it prefers.
-/

namespace Jawn

namespace Pattern

/-- The first match of the pattern at the front of `u ++ r` is `u`. -/
def Prefers (p : Pattern) (u r : List Char) : Prop :=
  (p.ends (u ++ r)).head? = some r

/-- A class does not go on at the front of a text. -/
def Stops (ok : Char → Bool) (r : List Char) : Prop :=
  ∀ c ∈ r.head?, ok c = false

variable {p q : Pattern} {ok ok' : Char → Bool} {c : Char} {t u v r : List Char}

@[simp]
theorem stops_nil : Stops ok [] := by
  simp [Stops]

@[simp]
theorem stops_cons : Stops ok (c :: r) ↔ ok c = false := by
  simp [Stops]

theorem stops_beq_iff : Stops (· == c) r ↔ r.head? ≠ some c := by
  cases r <;> simp

theorem Stops.mono (h : Stops ok r) (hle : ∀ c, ok' c = true → ok c = true) : Stops ok' r := by
  intro c hc
  have hstop := h c hc
  cases hok : ok' c with
  | false => rfl
  | true => rw [hle c hok] at hstop; cases hstop

theorem stops_dropWhile (ok : Char → Bool) (t : List Char) : Stops ok (t.dropWhile ok) := by
  induction t with
  | nil => exact stops_nil
  | cons c t ih =>
    cases hc : ok c with
    | false => simp [hc]
    | true => simpa [hc] using ih

theorem ends_eq_nil_iff : p.ends r = [] ↔ ∀ t s, r = t ++ s → ¬ p.Matches t := by
  rw [List.eq_nil_iff_forall_not_mem]
  simp only [mem_ends, not_exists, not_and]
  exact ⟨fun h t s => h s t, fun h s t => h t s⟩

theorem ends_one_eq_nil (h : Stops ok r) : (Pattern.one ok).ends r = [] := by
  cases r with
  | nil => rfl
  | cons c r => simp [ends, stops_cons.1 h]

theorem ends_text_eq_nil (h : Stops (· == c) r) : (Pattern.text (c :: t)).ends r = [] := by
  cases r with
  | nil => rfl
  | cons d r =>
    have hd : d ≠ c := by simpa using h
    simp [ends, List.isPrefixOf, hd.symm]

theorem ends_seq_eq_nil (h : p.ends r = []) : (Pattern.seq p q).ends r = [] := by
  rw [ends, h, List.flatMap_nil]

theorem prefers_text : Prefers (.text t) t r := by
  simp [Prefers, ends]

theorem prefers_one (h : ok c = true) : Prefers (.one ok) [c] r := by
  simp [Prefers, ends, h]

/-- A run passes over characters of its class. -/
theorem exists_runEnds_append (hu : ∀ c ∈ u, ok c = true) (r : List Char)
    (shorter : List (List Char)) :
    ∃ shorter', runEnds ok (u ++ r) shorter = runEnds ok r shorter' := by
  induction u generalizing shorter with
  | nil => exact ⟨shorter, rfl⟩
  | cons c u ih =>
    rw [List.forall_mem_cons] at hu
    rw [List.cons_append, runEnds, if_pos hu.1]
    exact ih hu.2 _

theorem runEnds_of_stops (hr : Stops ok r) (shorter : List (List Char)) :
    runEnds ok r shorter = r :: shorter := by
  cases r with
  | nil => rfl
  | cons c r => simp [runEnds, stops_cons.1 hr]

theorem prefers_many (hu : ∀ c ∈ u, ok c = true) (hr : Stops ok r) : Prefers (.many ok) u r := by
  obtain ⟨shorter, h⟩ := exists_runEnds_append hu r []
  rw [Prefers, ends, h, runEnds_of_stops hr, List.head?_cons]

theorem prefers_seq (hp : p.Prefers u (v ++ r)) (hq : q.Prefers v r) :
    Prefers (.seq p q) (u ++ v) r := by
  obtain ⟨rest, hends⟩ := List.head?_eq_some_iff.1 hp
  rw [Prefers, ends, List.append_assoc, hends, List.flatMap_cons, List.head?_append, hq,
    Option.some_or]

theorem prefers_altLeft (h : p.Prefers u r) : Prefers (.alt p q) u r := by
  rw [Prefers, ends, List.head?_append, h, Option.some_or]

theorem prefers_altRight (hp : p.ends (u ++ r) = []) (hq : q.Prefers u r) :
    Prefers (.alt p q) u r := by
  rw [Prefers, ends, hp, List.nil_append]
  exact hq

theorem prefers_none (h : p.ends r = []) : Prefers (optional p) [] r :=
  prefers_altRight h prefers_text

/-- A character of one class and then as many as possible of another. -/
theorem prefers_leading (h : (Pattern.seq (.one ok) (.many ok')).Matches u) (hr : Stops ok' r) :
    Prefers (.seq (.one ok) (.many ok')) u r := by
  obtain ⟨c, t, hc, ht, rfl⟩ := matches_leading.1 h
  exact prefers_seq (u := [c]) (prefers_one hc) (prefers_many ht hr)

/-- A repetition prefers to run on, if each round is preferred and no further one can start. -/
theorem prefers_star (h : (Pattern.star p).Matches u)
    (hp : ∀ a b, p.Matches a → (Pattern.star p).Matches b → p.Prefers a (b ++ r))
    (hr : p.ends r = []) : Prefers (.star p) u r := by
  -- The number of rounds is bounded by the length of the text; any bound that covers `u` will do.
  suffices hrounds : ∀ n, u.length ≤ n → (rounds p.ends n (u ++ r)).head? = some r from
    hrounds _ (by simp)
  intro n hn
  induction n generalizing u with
  | zero =>
    obtain rfl : u = [] := List.length_eq_zero_iff.1 (Nat.le_zero.1 hn)
    rfl
  | succ n ih =>
    rw [rounds]
    rcases h.star_cases with rfl | ⟨a, b, rfl, ha, hpa, hb⟩
    · rw [List.nil_append, hr]
      rfl
    · obtain ⟨rest, hends⟩ := List.head?_eq_some_iff.1 (hp a b hpa hb)
      have hlength : b.length ≤ n := by
        have := List.length_pos_iff.2 ha
        rw [List.length_append] at hn
        omega
      rw [List.append_assoc, hends, List.flatMap_cons, List.append_assoc, List.head?_append,
        ih hb hlength, Option.some_or]

/-! ## Firm patterns -/

/-- Every match of the pattern is preferred, whatever follows. -/
def Firm (p : Pattern) : Prop :=
  ∀ u r, p.Matches u → p.Prefers u r

theorem firm_text : Firm (.text t) := by
  intro u r h
  rw [matches_text.1 h]
  exact prefers_text

theorem firm_one : Firm (.one ok) := by
  intro u r h
  obtain ⟨c, hc, rfl⟩ := matches_one.1 h
  exact prefers_one hc

theorem firm_seq (hp : p.Firm) (hq : q.Firm) : Firm (.seq p q) := by
  intro u r h
  obtain ⟨a, b, ha, hb, rfl⟩ := matches_seq.1 h
  exact prefers_seq (hp _ _ ha) (hq _ _ hb)

/-- A choice between firm patterns is firm if only one of them can match at a time. -/
theorem firm_alt (hp : p.Firm) (hq : q.Firm) (h : ∀ s, p.ends s = [] ∨ q.ends s = []) :
    Firm (.alt p q) := by
  intro u r hu
  rcases matches_alt.1 hu with hu | hu
  · exact prefers_altLeft (hp _ _ hu)
  · refine prefers_altRight ((h (u ++ r)).resolve_right fun hnil => ?_) (hq _ _ hu)
    exact ends_eq_nil_iff.1 hnil u r rfl hu

theorem Firm.prefers_optional (hp : p.Firm) (h : (optional p).Matches u)
    (hr : u = [] → p.ends r = []) : Prefers (optional p) u r := by
  rcases matches_optional.1 h with h | rfl
  · exact prefers_altLeft (hp _ _ h)
  · exact prefers_none (hr rfl)

theorem Firm.prefers_star (hp : p.Firm) (h : (Pattern.star p).Matches u) (hr : p.ends r = []) :
    Prefers (.star p) u r :=
  Pattern.prefers_star h (fun _ _ ha _ => hp _ _ ha) hr

/-! ## Patterns that are read alike -/

/-- Whatever has to follow, the first pattern is read as the second. It may try again what it has
tried before. -/
def ReadsAs (p q : Pattern) : Prop :=
  ∀ (α : Type) (s : List Char) (f : List Char → Option α),
    (p.ends s).findSome? f = (q.ends s).findSome? f

theorem ReadsAs.refl (p : Pattern) : p.ReadsAs p :=
  fun _ _ _ => rfl

theorem findSome?_flatMap {α : Type} (xs : List (List Char)) (g : List Char → List (List Char))
    (f : List Char → Option α) :
    (xs.flatMap g).findSome? f = xs.findSome? fun x => (g x).findSome? f := by
  induction xs with
  | nil => rfl
  | cons x xs ih =>
    rw [List.flatMap_cons, List.findSome?_append, ih, List.findSome?_cons]
    cases (g x).findSome? f <;> rfl

theorem ReadsAs.seq {p' q' : Pattern} (hp : p.ReadsAs p') (hq : q.ReadsAs q') :
    (Pattern.seq p q).ReadsAs (.seq p' q') := by
  intro α s f
  rw [ends, ends, findSome?_flatMap, findSome?_flatMap, hp]
  simp only [hq _ _ f]

theorem ReadsAs.star {p' : Pattern} (hp : p.ReadsAs p') :
    (Pattern.star p).ReadsAs (.star p') := by
  intro α s f
  rw [ends, ends]
  generalize s.length = n
  induction n generalizing s with
  | zero => rfl
  | succ n ih =>
    rw [rounds, rounds, List.findSome?_append, List.findSome?_append, findSome?_flatMap,
      findSome?_flatMap, hp]
    simp only [ih]

end Pattern

namespace Form

variable {part : Part} {form : Form} {u r : List Char} {segments : List Segment}

/-- A part that prefers a text is read as this text, if the form goes on behind it. -/
theorem read_cons_of_prefers (hpart : part.pattern.Prefers u r)
    (hread : Form.read form r = some segments) :
    Form.read (part :: form) (u ++ r) = some (⟨part.role, u⟩ :: segments) := by
  obtain ⟨rest, hends⟩ := List.head?_eq_some_iff.1 hpart
  rw [read_cons, hends, List.findSome?_cons, hread, take_length_sub]
  rfl

/-- A part is read as the only match behind which the form goes on. -/
theorem read_cons_of_unique (hpart : part.pattern.Matches u)
    (hread : Form.read form r = some segments)
    (hunique : ∀ t s, u ++ r = t ++ s → part.pattern.Matches t → Form.read form s ≠ none → s = r) :
    Form.read (part :: form) (u ++ r) = some (⟨part.role, u⟩ :: segments) := by
  have hmem : r ∈ part.pattern.ends (u ++ r) := Pattern.mem_ends.2 ⟨u, rfl, hpart⟩
  rw [read_cons]
  cases hfind : (part.pattern.ends (u ++ r)).findSome? fun rest => (Form.read form rest).map
      (⟨part.role, (u ++ r).take ((u ++ r).length - rest.length)⟩ :: ·) with
  | none =>
    have := List.findSome?_eq_none_iff.1 hfind r hmem
    simp [hread] at this
  | some found =>
    obtain ⟨s, hs, hfound⟩ := List.exists_of_findSome?_eq_some hfind
    obtain ⟨t, ht, hpart'⟩ := Pattern.mem_ends.1 hs
    obtain rfl : s = r := hunique t s ht hpart' fun hnone => by simp [hnone] at hfound
    rw [hread, take_length_sub] at hfound
    exact hfound.symm

/-- A part can be replaced by another one that is read alike. -/
theorem read_of_readsAs {role : Role} {p q : Pattern} (h : p.ReadsAs q) (before after : Form)
    (s : List Char) :
    Form.read (before ++ ⟨role, p⟩ :: after) s = Form.read (before ++ ⟨role, q⟩ :: after) s := by
  induction before generalizing s with
  | nil => rw [List.nil_append, List.nil_append, read_cons, read_cons, h]
  | cons part before ih => simp only [List.cons_append, read_cons, ih]

end Form

end Jawn
