import Jawn.Proofs.Precedence
import Jawn.Proofs.Starts

/-!
# The longest match

A pattern is read as the match that it prefers, and this need not be its longest one: an alternative
that comes first wins, and a repetition gives nothing back as long as what follows it fits. In the
grammar nothing is lost by this, apart from one rule:

* `Pattern.PrefixFree`: no text of the pattern goes on to another one, so there is only one match;
* `Pattern.Greedy`: the preferred match is at least as long as any other, with one lemma for each
  way to build a pattern;
* `Form.prefers_of_read`: a form is read as the preferred match of its parts in a row;
* `Grammar.rules_settled`, `Grammar.greedy_last`: a rule is free of prefixes, or it is up to its
  last part, and this one is greedy;
* `Lexeme.next?_longest`: so a rule reads the longest text it can, and no lexeme is shorter than a
  text that some rule has at its place.

The rule left out declares constants. It takes a `#` for the sign of a deferred value and then
refuses an atom, which it would take as a value together with the `#`.
-/

namespace Jawn

open Lexical

namespace Pattern

variable {p q : Pattern} {ok : Char → Bool} {s t u v r : List Char}

/-- A text of the pattern at the front of a text, and no other one there is longer. -/
structure Longest (p : Pattern) (s t : List Char) : Prop where
  front : t <+: s
  mem : p.Matches t
  length_le : ∀ u, u <+: s → p.Matches u → u.length ≤ t.length

theorem Longest.unique (ht : p.Longest s t) (hu : p.Longest s u) : t = u := by
  have htu := hu.length_le t ht.front ht.mem
  have hut := ht.length_le u hu.front hu.mem
  exact (List.prefix_of_prefix_length_le ht.front hu.front htu).eq_of_length (by omega)

/-! ## Preferred matches -/

theorem Prefers.mem (h : p.Prefers u r) : p.Matches u := by
  obtain ⟨t, heq, ht⟩ := mem_ends.1 (List.mem_of_mem_head? h)
  rwa [List.append_cancel_right heq]

theorem Prefers.unique {r' : List Char} (hu : p.Prefers u r) (hv : p.Prefers v r')
    (h : u ++ r = v ++ r') : u = v := by
  rw [Prefers, h, hv] at hu
  rw [Option.some.inj hu] at h
  exact List.append_cancel_right h

/-- Where a pattern matches, one of its matches is preferred. -/
theorem exists_prefers (h : p.Matches t) (r : List Char) :
    ∃ u r', t ++ r = u ++ r' ∧ p.Prefers u r' := by
  have hmem : r ∈ p.ends (t ++ r) := mem_ends.2 ⟨t, rfl, h⟩
  obtain ⟨r', rest, hends⟩ := List.exists_cons_of_ne_nil (List.ne_nil_of_mem hmem)
  obtain ⟨u, hu, -⟩ := mem_ends.1 (hends ▸ List.mem_cons_self : r' ∈ p.ends (t ++ r))
  refine ⟨u, r', hu, ?_⟩
  rw [Prefers, ← hu, hends, List.head?_cons]

/-! ## Patterns with one match at most -/

/-- No text of the pattern goes on to another one. -/
def PrefixFree (p : Pattern) : Prop :=
  ∀ t u, p.Matches t → p.Matches (t ++ u) → u = []

theorem PrefixFree.unique {r' : List Char} (h : p.PrefixFree) (ht : p.Matches t) (hu : p.Matches u)
    (heq : t ++ r = u ++ r') : t = u := by
  rcases List.append_eq_append_iff.1 heq with ⟨x, rfl, -⟩ | ⟨x, rfl, -⟩
  · rw [h t x ht hu, List.append_nil]
  · rw [h u x hu ht, List.append_nil]

theorem Firm.prefixFree (h : p.Firm) : p.PrefixFree := by
  intro t u ht htu
  have heq : t ++ u = t ++ u ++ [] := (List.append_nil _).symm
  exact List.self_eq_append_right.1 ((h t u ht).unique (h (t ++ u) [] htu) heq)

/-- The shapes show that no text of the pattern goes on to another one. -/
def endsItself (p : Pattern) : Bool :=
  Shape.apart (Shape.ofPattern p) (Shape.ofPattern (p.prolonged fun _ => false))

theorem prefixFree_of_endsItself (hp : p.RespectsKinds) (h : p.endsItself = true) :
    p.PrefixFree := by
  intro t u ht htu
  by_contra hne
  exact Shape.not_matches_of_apart hp (prolonged_respectsKinds hp fun _ => rfl) h htu
    (matches_prolonged ht (fun _ _ => rfl) hne)

/-! ## Greedy patterns -/

/-- Where a text of the pattern stands, the preferred match is at least as long. -/
def Greedy (p : Pattern) : Prop :=
  ∀ t r, p.Matches t → ∃ u r', t ++ r = u ++ r' ∧ p.Prefers u r' ∧ t.length ≤ u.length

theorem Greedy.length_le {r' : List Char} (h : p.Greedy) (hu : p.Prefers u r)
    (heq : u ++ r = t ++ r') (ht : p.Matches t) : t.length ≤ u.length := by
  obtain ⟨v, s, hv, hprefers, hle⟩ := h t r' ht
  rwa [hu.unique hprefers (heq.trans hv)]

theorem Greedy.congr (h : ∀ s, p.ends s = q.ends s) (hp : p.Greedy) : q.Greedy := by
  intro t r ht
  rw [matches_iff_nil_mem_ends, ← h, ← matches_iff_nil_mem_ends] at ht
  obtain ⟨u, r', heq, hu, hle⟩ := hp t r ht
  refine ⟨u, r', heq, ?_, hle⟩
  rw [Prefers, ← h]
  exact hu

theorem PrefixFree.greedy (h : p.PrefixFree) : p.Greedy := by
  intro t r ht
  obtain ⟨u, r', heq, hu⟩ := exists_prefers ht r
  exact ⟨u, r', heq, hu, Nat.le_of_eq (congrArg List.length (h.unique ht hu.mem heq))⟩

theorem greedy_text : Greedy (.text t) :=
  firm_text.prefixFree.greedy

theorem greedy_one : Greedy (.one ok) :=
  firm_one.prefixFree.greedy

theorem greedy_many : Greedy (.many ok) := by
  intro t r ht
  refine ⟨t ++ r.takeWhile ok, r.dropWhile ok, by simp, ?_, by simp⟩
  refine prefers_many ?_ (stops_dropWhile ok r)
  rw [List.forall_mem_append]
  exact ⟨matches_many.1 ht, List.all_eq_true.1 List.all_takeWhile⟩

/-- Two greedy patterns in a row are greedy, if the second one takes nothing behind a match of the
first one that can be longer. -/
theorem greedy_seq (hp : p.Greedy) (hq : q.Greedy)
    (h : ∀ a x b r r', p.Matches a → p.Matches (a ++ x) → x ≠ [] → q.Matches b →
      x ++ r = b ++ r' → b = []) : Greedy (.seq p q) := by
  intro t r ht
  obtain ⟨a, b, ha, hb, rfl⟩ := matches_seq.1 ht
  obtain ⟨u, s, hu, hprefers, hle⟩ := hp a (b ++ r) ha
  obtain ⟨x, rfl⟩ : a <+: u := List.prefix_of_prefix_length_le ⟨_, rfl⟩ ⟨s, hu.symm⟩ hle
  have hrest : b ++ r = x ++ s := by simpa using hu
  by_cases hx : x = []
  · -- The first pattern stops at the same place.
    subst hx
    obtain ⟨v, r', hv, hq', hle'⟩ := hq b r hb
    obtain rfl : b ++ r = s := by simpa using hrest
    rw [hv] at hprefers
    refine ⟨a ++ [] ++ v, r', ?_, prefers_seq hprefers hq', ?_⟩
    · rw [List.append_assoc, hv, List.append_nil, List.append_assoc]
    · rw [List.length_append, List.length_append, List.append_nil]
      omega
  · -- It goes on, and nothing was left for the second one.
    obtain rfl := h a x b s r ha hprefers.mem hx hb hrest.symm
    obtain ⟨v, r', rfl, hq', -⟩ := hq [] s hb
    refine ⟨a ++ x ++ v, r', ?_, prefers_seq hprefers hq', ?_⟩
    · simpa using hrest
    · simp only [List.length_append, List.length_nil]
      omega

theorem PrefixFree.greedy_seq (hp : p.PrefixFree) (hq : q.Greedy) : Greedy (.seq p q) :=
  Pattern.greedy_seq hp.greedy hq fun a x _ _ _ ha hax hx _ _ => absurd (hp a x ha hax) hx

/-- So they are, if no character of the first one can start the second one. -/
theorem greedy_seq_of_starts (hp : p.Greedy) (hq : q.Greedy)
    (h : ∀ c, p.allows c = true → q.starts c = false) : Greedy (.seq p q) := by
  refine greedy_seq hp hq fun a x b r r' _ hax hx hb heq => ?_
  obtain ⟨c, x, rfl⟩ := List.exists_cons_of_ne_nil hx
  have hc := h c (allows_of_matches hax c (by simp))
  cases b with
  | nil => rfl
  | cons d b =>
    obtain ⟨rfl, -⟩ := List.cons.inj heq
    rw [starts_of_matches hb] at hc
    cases hc

/-- A choice between greedy patterns is greedy, if the second one never matches more than the first
one does at the same place. -/
theorem greedy_alt (hp : p.Greedy) (hq : q.Greedy)
    (h : ∀ t u r r', t ++ r = u ++ r' → p.Matches t → q.Matches u → u.length ≤ t.length) :
    Greedy (.alt p q) := by
  intro t r ht
  rcases matches_alt.1 ht with ht | ht
  · obtain ⟨u, r', heq, hu, hle⟩ := hp t r ht
    exact ⟨u, r', heq, prefers_altLeft hu, hle⟩
  · by_cases hnil : p.ends (t ++ r) = []
    · obtain ⟨u, r', heq, hu, hle⟩ := hq t r ht
      exact ⟨u, r', heq, prefers_altRight (heq ▸ hnil) hu, hle⟩
    · obtain ⟨e, he⟩ := List.exists_mem_of_ne_nil _ hnil
      obtain ⟨v, hv, hmatches⟩ := mem_ends.1 he
      obtain ⟨u, r', heq, hu⟩ := exists_prefers hmatches e
      exact ⟨u, r', hv.trans heq, prefers_altLeft hu, h u t r' r (hv.trans heq).symm hu.mem ht⟩

theorem greedy_optional (hp : p.Greedy) : Greedy (optional p) := by
  refine greedy_alt hp greedy_text fun t u r r' _ _ hu => ?_
  rw [matches_text.1 hu]
  exact Nat.zero_le _

/-- The longer texts come first. -/
theorem greedy_anyOf {texts : List String} (h : texts.Pairwise fun t u => u.length ≤ t.length) :
    Greedy (anyOf texts) := by
  induction texts with
  | nil => exact greedy_one
  | cons k texts ih =>
    rw [List.pairwise_cons] at h
    refine greedy_alt greedy_text (ih h.2) fun t u r r' _ ht hu => ?_
    obtain ⟨k', hk', rfl⟩ := matches_anyOf.1 hu
    rw [matches_text.1 ht]
    simpa only [String.length_toList] using h.1 k' hk'

end Pattern

/-! ## The classes at the end of a rule -/

namespace Lexical

open Pattern

theorem greedy_identifier : identifier.Greedy :=
  firm_one.prefixFree.greedy_seq greedy_many

theorem greedy_className : className.Greedy :=
  firm_one.prefixFree.greedy_seq greedy_many

theorem greedy_member : member.Greedy :=
  firm_one.prefixFree.greedy_seq greedy_many

theorem greedy_digits : digits.Greedy :=
  firm_one.prefixFree.greedy_seq greedy_many

theorem greedy_restOfLine : restOfLine.Greedy :=
  greedy_many

theorem greedy_comment : Greedy (.seq (.text ['/', '/']) restOfLine) :=
  firm_text.prefixFree.greedy_seq greedy_restOfLine

theorem greedy_number : number.Greedy := by
  have hfraction : Greedy (optional (.seq (.text ['.']) digits)) :=
    greedy_optional (firm_text.prefixFree.greedy_seq greedy_digits)
  refine greedy_seq_of_starts (greedy_optional greedy_text)
    (greedy_seq_of_starts greedy_digits hfraction ?whole) ?sign
  case whole =>
    intro c hc
    have hdigit : c.isDigit = true := by simpa [digits, allows] using hc
    rw [Bool.eq_false_iff]
    intro hstarts
    obtain rfl : '.' = c := by simpa [Pattern.optional, starts, nullable] using hstarts
    cases hdigit
  case sign =>
    intro c hc
    obtain rfl : c = '-' := by simpa [Pattern.optional, allows] using hc
    rfl

theorem greedy_value : value.Greedy := by
  refine greedy_alt greedy_identifier greedy_number fun t u r r' heq ht hu => ?_
  -- A variable starts with a letter, and a number does not.
  obtain ⟨c, t, hc, -, rfl⟩ := matches_leading.1 ht
  obtain ⟨d, u, rfl, hd⟩ := exists_of_matches_number hu
  obtain ⟨rfl, -⟩ := List.cons.inj heq
  rcases hd with rfl | hd
  · cases hc
  · rw [isLower_of_isDigit hd] at hc
    cases hc

theorem greedy_operator : operator.Greedy := by
  refine greedy_alt (greedy_anyOf (by decide)) greedy_one fun t u r r' heq ht hu => ?_
  obtain ⟨k, hk, rfl⟩ := matches_anyOf.1 ht
  obtain ⟨c, -, rfl⟩ := matches_one.1 hu
  have hlong : 2 ≤ k.toList.length := by
    clear heq ht
    revert k
    decide
  exact Nat.le_of_succ_le hlong

/-- A sign of a deferred value and the rest of the line. The sign is read on its own or as the first
character of the line. -/
def markedLine : Form :=
  [Grammar.marker, Grammar.operand restOfLine]

theorem prefers_markedLine (hu : ∀ c ∈ u, (!isLineEnd c) = true)
    (hr : Stops (fun c => !isLineEnd c) r) : markedLine.pattern.Prefers u r := by
  have hline : ∀ v, (∀ c ∈ v, (!isLineEnd c) = true) →
      (Pattern.seq restOfLine (.text [])).Prefers v r := by
    intro v hv
    have hprefers := prefers_seq (prefers_many hv (r := [] ++ r) hr) (prefers_text (t := []))
    rwa [List.append_nil] at hprefers
  by_cases hsign : u.head? = some '#'
  · obtain ⟨v, rfl⟩ := List.head?_eq_some_iff.1 hsign
    rw [List.forall_mem_cons] at hu
    exact prefers_seq (u := ['#']) (prefers_altLeft prefers_text) (hline v hu.2)
  · refine prefers_seq (u := []) (prefers_none (ends_text_eq_nil ?_)) (hline u hu)
    cases u with
    | nil =>
      refine hr.mono fun c hc => ?_
      rw [eq_of_beq hc]
      rfl
    | cons c u => simpa using hsign

theorem greedy_markedLine : markedLine.pattern.Greedy := by
  intro t r ht
  have hline : ∀ c ∈ t, (!isLineEnd c) = true := by
    obtain ⟨a, b, ha, hb, rfl⟩ := matches_seq.1 ht
    obtain ⟨line, e, hline, he, rfl⟩ := matches_seq.1 hb
    rw [matches_text.1 he, List.append_nil, List.forall_mem_append]
    refine ⟨?_, matches_many.1 hline⟩
    rcases matches_optional.1 ha with ha | rfl
    · rw [matches_text.1 ha, List.forall_mem_singleton]
      rfl
    · exact List.forall_mem_nil _
  refine ⟨t ++ r.takeWhile fun c => !isLineEnd c, r.dropWhile fun c => !isLineEnd c, by simp, ?_,
    by simp⟩
  refine prefers_markedLine ?_ (stops_dropWhile _ r)
  rw [List.forall_mem_append]
  exact ⟨hline, List.all_eq_true.1 List.all_takeWhile⟩

end Lexical

/-! ## Forms -/

namespace Form

variable {form front back : Form} {s t : List Char} {segments : List Segment}

/-- A form is read as the preferred match of its parts in a row. -/
theorem prefers_of_read (h : Form.read form s = some segments) :
    ∃ r, s = segments.flatMap Segment.text ++ r ∧
      form.pattern.Prefers (segments.flatMap Segment.text) r := by
  induction form generalizing s segments with
  | nil =>
    obtain rfl : [] = segments := by simpa [Form.read] using h
    exact ⟨s, rfl, Pattern.prefers_text⟩
  | cons part form ih =>
    rw [read_cons, List.findSome?_eq_some_iff] at h
    obtain ⟨before, e, after, hends, he, hbefore⟩ := h
    obtain ⟨segments', hread, rfl⟩ := Option.map_eq_some_iff.1 he
    obtain ⟨r, rfl, hprefers⟩ := ih hread
    obtain ⟨u, rfl, -⟩ := Pattern.mem_ends.1
      (by simp [hends] : segments'.flatMap Segment.text ++ r ∈ part.pattern.ends s)
    refine ⟨r, by rw [take_length_sub, List.flatMap_cons, List.append_assoc], ?_⟩
    -- The form goes on behind none of the matches before this one.
    have hskipped : before.flatMap (Form.pattern form).ends = [] := by
      refine List.flatMap_eq_nil_iff.2 fun x hx => ?_
      have hnone := Option.map_eq_none_iff.1 (hbefore x hx)
      rw [read_eq_none_iff] at hnone
      exact Pattern.ends_eq_nil_iff.2 fun t rest heq ht => hnone ⟨t, rest, heq, ht⟩
    rw [take_length_sub, List.flatMap_cons, Pattern.Prefers, List.append_assoc]
    show ((part.pattern.ends _).flatMap (Form.pattern form).ends).head? = some r
    rw [hends, List.flatMap_append, hskipped, List.nil_append, List.flatMap_cons,
      List.head?_append, hprefers, Option.some_or]

theorem longest_of_read (h : form.pattern.Greedy) (hread : Form.read form s = some segments) :
    form.pattern.Longest s (segments.flatMap Segment.text) := by
  obtain ⟨r, rfl, hprefers⟩ := prefers_of_read hread
  refine ⟨List.prefix_append .., hprefers.mem, ?_⟩
  rintro u ⟨r', hu⟩ hmatches
  exact h.length_le hprefers hu.symm hmatches

theorem exists_read_of_matches (ht : t <+: s) (hmatches : form.pattern.Matches t) :
    ∃ segments, Form.read form s = some segments := by
  obtain ⟨r, hr⟩ := ht
  rw [← Option.ne_none_iff_exists', Ne, read_eq_none_iff, not_not]
  exact ⟨t, r, hr.symm, hmatches⟩

/-- A form whose pattern is greedy is read as the longest text at its place. -/
theorem read_iff_longest (h : form.pattern.Greedy) :
    (Form.read form s).map (·.flatMap Segment.text) = some t ↔ form.pattern.Longest s t := by
  rw [Option.map_eq_some_iff]
  constructor
  · rintro ⟨segments, hread, rfl⟩
    exact longest_of_read h hread
  · intro ht
    obtain ⟨segments, hread⟩ := exists_read_of_matches ht.front ht.mem
    exact ⟨segments, hread, (longest_of_read h hread).unique ht⟩

theorem ends_pattern_append (front back : Form) (s : List Char) :
    (Form.pattern (front ++ back)).ends s = (Pattern.seq front.pattern back.pattern).ends s := by
  induction front generalizing s with
  | nil => simp [pattern, Pattern.ends]
  | cons part front ih =>
    show (part.pattern.ends s).flatMap (Form.pattern (front ++ back)).ends =
      ((part.pattern.ends s).flatMap (Form.pattern front).ends).flatMap back.pattern.ends
    rw [List.flatMap_assoc]
    exact List.flatMap_congr fun e _ => ih e

/-- Up to some part there is only one match, and from there on the longest one is preferred. -/
theorem greedy_append (hfront : front.pattern.PrefixFree) (hback : back.pattern.Greedy) :
    (Form.pattern (front ++ back)).Greedy :=
  (hfront.greedy_seq hback).congr fun s => (ends_pattern_append front back s).symm

theorem greedy_singleton {part : Part} (h : part.pattern.Greedy) : (Form.pattern [part]).Greedy :=
  Pattern.greedy_seq_of_starts h Pattern.greedy_text fun _ _ => rfl

theorem respectsKinds_dropLast (h : form.pattern.RespectsKinds) :
    (Form.pattern form.dropLast).RespectsKinds := by
  induction form with
  | nil => trivial
  | cons part form ih =>
    cases form with
    | nil => trivial
    | cons part' form => exact ⟨h.1, ih h.2⟩

end Form

/-! ## The rules -/

namespace Grammar

/-- Apart from the declarations of variables, a rule has one match at most, or it has one at most up
to its last part. -/
theorem rules_settled : ∀ rule ∈ rules, rule.name ∈ ["var", "var_mut"] ∨
    rule.form.pattern.endsItself = true ∨ (Form.pattern rule.form.dropLast).endsItself = true := by
  decide +kernel

/-- Each class at the end of a rule prefers its longest match. -/
theorem greedy_last : ∀ rule ∈ rules, rule.name ≠ "var" →
    ∀ part ∈ rule.form.getLast?, part.pattern.Greedy := by
  simp only [rules, rule, List.forall_mem_cons, List.getLast?_cons_cons, List.getLast?_singleton,
    Option.mem_some_iff, forall_eq', word, operand, fixed, Pattern.greedy_text, Pattern.greedy_one,
    greedy_identifier, greedy_className, greedy_member, greedy_restOfLine, greedy_comment,
    greedy_number, greedy_value, greedy_operator, implies_true, true_and]
  exact ⟨fun h => absurd rfl h, List.forall_mem_nil _⟩

theorem greedy_mutableVar {rule : Rule} (hrule : rule ∈ rules) (hname : rule.name = "var_mut") :
    rule.form.pattern.Greedy := by
  have hnamed := named_of_mem hrule
  rw [hname] at hnamed
  obtain rfl := Option.some.inj hnamed
  have hfront : (Form.pattern [word "jawn* ", operand identifier, word " := "]).PrefixFree :=
    Pattern.prefixFree_of_endsItself ⟨trivial, identifier_respectsKinds, trivial, trivial⟩
      (by decide +kernel)
  exact Form.greedy_append hfront greedy_markedLine

/-- Apart from one rule, the longest match is preferred. -/
theorem greedy_pattern {rule : Rule} (hrule : rule ∈ rules) (hname : rule.name ≠ "var") :
    rule.form.pattern.Greedy := by
  have hkinds := respectsKinds rule hrule
  rcases rules_settled rule hrule with hdeclares | hwhole | hfront
  · simp only [List.mem_cons, List.not_mem_nil, or_false] at hdeclares
    exact greedy_mutableVar hrule (hdeclares.resolve_left hname)
  · exact (Pattern.prefixFree_of_endsItself hkinds hwhole).greedy
  · cases hlast : rule.form.getLast? with
    | none =>
      rw [List.getLast?_eq_none_iff.1 hlast]
      exact Pattern.greedy_text
    | some part =>
      rw [← List.dropLast_append_getLast? part hlast]
      exact Form.greedy_append
        (Pattern.prefixFree_of_endsItself (Form.respectsKinds_dropLast hkinds) hfront)
        (Form.greedy_singleton (greedy_last rule hrule hname part hlast))

end Grammar

namespace Lexeme

/-- A rule reaches as far as any text that it has at this place. -/
theorem length_le_reach {rule : Rule} (h : rule.form.pattern.Greedy) {s t : List Char}
    (ht : t <+: s) (hmatches : rule.form.pattern.Matches t) : t.length ≤ reach s rule := by
  obtain ⟨segments, hread⟩ := Form.exists_read_of_matches ht hmatches
  rw [reach_of_read hread]
  exact (Form.longest_of_read h hread).length_le t ht hmatches

/-- Apart from one rule, what a rule reads is the longest text at the front of `s` that it has at
all. So a lexeme is at least as long as any text that these rules have there, and of all rules that
read as much it comes from the first one. Where there is no lexeme, no rule has a text. -/
theorem next?_longest (s : List Char) :
    (∀ rule ∈ Grammar.rules, rule.name ≠ "var" → ∀ t,
      (Form.read rule.form s).map (·.flatMap Segment.text) = some t ↔
        rule.form.pattern.Longest s t) ∧
    (∀ l, next? s = some l →
      (∀ rule ∈ Grammar.rules, rule.name ≠ "var" → ∀ t, t <+: s → rule.form.pattern.Matches t →
        t.length ≤ l.text.length) ∧
      (∀ rule ∈ Grammar.rules, reach s rule ≤ l.text.length) ∧
      Grammar.rules.find? (fun rule => reach s rule = l.text.length) = some l.rule ∧
      Form.read l.rule.form s = some l.segments) ∧
    (next? s = none → ∀ rule ∈ Grammar.rules, ∀ t, t <+: s → ¬ rule.form.pattern.Matches t) := by
  refine ⟨fun rule hrule hname t => ?_, fun l hl => ?_, fun hnone rule hrule t ht hmatches => ?_⟩
  · exact Form.read_iff_longest (Grammar.greedy_pattern hrule hname)
  · obtain ⟨hread, -, before, after, hrules, hbefore, -⟩ := next?_eq_some_iff.1 hl
    refine ⟨fun rule hrule hname t ht hmatches => ?_, fun rule hrule => ?_, ?_, hread⟩
    · exact Nat.le_trans (length_le_reach (Grammar.greedy_pattern hrule hname) ht hmatches)
        (reach_le_of_next? hl hrule)
    · exact reach_le_of_next? hl hrule
    · rw [List.find?_eq_some_iff_append]
      refine ⟨decide_eq_true (reach_of_read hread), before, after, hrules, fun rule hrule => ?_⟩
      simpa using Nat.ne_of_lt (hbefore rule hrule)
  · obtain ⟨rest, hs⟩ := ht
    exact next?_eq_none_iff.1 hnone rule hrule ⟨t, rest, hs.symm, hmatches⟩

/-- The rule left out stops before an atom behind a `#`, although it has the whole text. -/
example : (Grammar.named "var").any (fun rule =>
    (Form.read rule.form "jawn x := #:ok".toList).map (·.flatMap Segment.text) =
        some "jawn x := #".toList ∧
      rule.form.pattern.Matches "jawn x := #:ok".toList) = true := by decide +kernel

end Lexeme

end Jawn
