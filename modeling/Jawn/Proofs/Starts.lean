import Jawn.Proofs.LineEnds
import Jawn.Proofs.Standalone

/-!
# Where no lexeme starts

A scan stops at a character where no rule reads anything. Which rules can read something there is
mostly settled by the character alone:

* `Lexeme.next?_eq_none_iff`: no lexeme starts if and only if no rule of the grammar matches at the
  front of the text;
* `Pattern.starts_of_matches`, `Lexeme.next?_cons_eq_none_iff`: only the rules count whose texts can
  start with the first character;
* `next?_ne_none_of_isPlain`, `Grammar.starting_of_foreign`: most characters always start a lexeme or
  never do;
* `Lexeme.next?_carriageReturn` and its like: with a few signs only one rule can start, and what must
  follow them is what this rule reads;
* `closes_eq_true_iff`: a string is closed if reading on from character to character comes to its
  quote;
* `next?_eq_none_iff_stuck`: all places where no lexeme starts.
-/

namespace Jawn

open Lexical

/-! ## Matches at the front of a text -/

namespace Pattern

variable {p q : Pattern} {c : Char} {s t : List Char}

/-- A text of the pattern stands at the front of a text. -/
def Begins (p : Pattern) (s : List Char) : Prop :=
  ∃ t rest, s = t ++ rest ∧ p.Matches t

theorem begins_seq_iff :
    (Pattern.seq p q).Begins s ↔ ∃ t rest, s = t ++ rest ∧ p.Matches t ∧ q.Begins rest := by
  constructor
  · rintro ⟨_, rest, rfl, h⟩
    obtain ⟨t, u, ht, hu, rfl⟩ := matches_seq.1 h
    exact ⟨t, u ++ rest, List.append_assoc .., ht, u, rest, rfl, hu⟩
  · rintro ⟨t, _, rfl, ht, u, rest, rfl, hu⟩
    exact ⟨t ++ u, rest, (List.append_assoc ..).symm, .seq ht hu⟩

/-- A repetition of a text and a pattern behind it. -/
theorem matches_star_text_seq :
    (Pattern.star (.seq (.text t) p)).Matches s ↔
      ∃ us : List (List Char), (∀ u ∈ us, p.Matches u) ∧ s = us.flatMap (t ++ ·) := by
  constructor
  · intro h
    generalize hq : Pattern.star (.seq (.text t) p) = q at h
    induction h with
    | starNil => exact ⟨[], List.forall_mem_nil _, rfl⟩
    | starCons hround _ _ ih =>
      obtain rfl := Pattern.star.inj hq
      obtain ⟨us, hus, rfl⟩ := ih rfl
      obtain ⟨_, u, ht, hu, rfl⟩ := matches_seq.1 hround
      obtain rfl := matches_text.1 ht
      exact ⟨u :: us, List.forall_mem_cons.2 ⟨hu, hus⟩, rfl⟩
    | _ => cases hq
  · rintro ⟨us, hus, rfl⟩
    induction us with
    | nil => exact .starNil
    | cons u us ih =>
      rw [List.forall_mem_cons] at hus
      exact .starCons (.seq (.text t) hus.1) (ih hus.2)

/-- The characters with which a text of the pattern can start. -/
def starts : Pattern → Char → Bool
  | .text t, c => t.head? == some c
  | .one ok, c | .many ok, c => ok c
  | .seq p q, c => p.starts c || p.nullable && q.starts c
  | .alt p q, c => p.starts c || q.starts c
  | .star p, c => p.starts c

theorem starts_of_matches (h : p.Matches (c :: t)) : p.starts c = true := by
  generalize hs : c :: t = s at h
  induction h generalizing t with
  | text => simp [starts, ← hs]
  | one hc =>
    obtain ⟨rfl, -⟩ := List.cons.inj hs
    exact hc
  | many hc => exact hc c (by simp [← hs])
  | @seq p q u v hp _ ihp ihq =>
    cases u with
    | nil => simp [starts, nullable_of_matches_nil hp, ihq hs]
    | cons d u =>
      obtain ⟨rfl, -⟩ := List.cons.inj hs
      simp [starts, ihp rfl]
  | altLeft _ ih => simp [starts, ih hs]
  | altRight _ ih => simp [starts, ih hs]
  | starNil => cases hs
  | @starCons p u v _ _ ihp ihv =>
    cases u with
    | nil => exact ihv hs
    | cons d u =>
      obtain ⟨rfl, -⟩ := List.cons.inj hs
      exact ihp rfl

end Pattern

namespace Form

variable {form : Form} {s : List Char}

theorem begins_nil : (Form.pattern []).Begins s :=
  ⟨[], s, rfl, .text []⟩

theorem begins_cons {part : Part} :
    (Form.pattern (part :: form)).Begins s ↔
      ∃ t rest, s = t ++ rest ∧ part.pattern.Matches t ∧ form.pattern.Begins rest :=
  Pattern.begins_seq_iff

theorem begins_word {k : String} :
    (Form.pattern (Grammar.word k :: form)).Begins s ↔
      ∃ rest, s = k.toList ++ rest ∧ form.pattern.Begins rest := by
  rw [begins_cons]
  constructor
  · rintro ⟨t, rest, rfl, ht, hrest⟩
    obtain rfl := Pattern.matches_text.1 ht
    exact ⟨rest, rfl, hrest⟩
  · rintro ⟨rest, rfl, hrest⟩
    exact ⟨_, rest, rfl, .text _, hrest⟩

theorem begins_marker :
    (Form.pattern (Grammar.marker :: form)).Begins s ↔
      ∃ deferred rest, s = (mark deferred).toList ++ rest ∧ form.pattern.Begins rest := by
  rw [begins_cons]
  constructor
  · rintro ⟨t, rest, rfl, ht, hrest⟩
    rcases Pattern.matches_optional.1 ht with ht | rfl
    · obtain rfl := Pattern.matches_text.1 ht
      exact ⟨true, rest, rfl, hrest⟩
    · exact ⟨false, rest, rfl, hrest⟩
  · rintro ⟨deferred, rest, rfl, hrest⟩
    refine ⟨_, rest, rfl, Pattern.matches_optional.2 ?_, hrest⟩
    cases deferred with
    | false => exact .inr rfl
    | true => exact .inl (.text ['#'])

/-- A form reads something if and only if its pattern matches at the front. -/
theorem read_eq_none_iff : Form.read form s = none ↔ ¬ form.pattern.Begins s := by
  induction form generalizing s with
  | nil => simp [Form.read, begins_nil]
  | cons part form ih =>
    rw [read_cons, begins_cons, List.findSome?_eq_none_iff]
    simp only [Option.map_eq_none_iff, ih, Pattern.mem_ends]
    constructor
    · rintro h ⟨t, rest, hs, ht, hrest⟩
      exact h rest ⟨t, hs, ht⟩ hrest
    · rintro h rest ⟨t, hs, ht⟩ hrest
      exact h ⟨t, rest, hs, ht, hrest⟩

end Form

/-- The rules whose texts can start with a character. -/
def Grammar.starting (c : Char) : List Rule :=
  rules.filter fun rule => rule.form.pattern.starts c

namespace Lexeme

variable {c : Char} {s rest : List Char}

theorem next?_eq_none_iff :
    next? s = none ↔ ∀ rule ∈ Grammar.rules, ¬ rule.form.pattern.Begins s := by
  rw [next?, firstLongest_eq_none_iff, List.filterMap_eq_nil_iff]
  refine forall₂_congr fun rule hrule => ?_
  rw [← Form.read_eq_none_iff, ofRule?]
  cases hread : Form.read rule.form s with
  | none => simp
  | some segments =>
    have hne := Grammar.ne_nil_of_matches hrule
      (Form.matches_of_reads (Form.reads_of_read hread).1)
    simpa using hne

theorem next?_cons_eq_none_iff :
    next? (c :: rest) = none ↔
      ∀ rule ∈ Grammar.starting c, ¬ rule.form.pattern.Begins (c :: rest) := by
  rw [next?_eq_none_iff]
  simp only [Grammar.starting, List.mem_filter, and_imp]
  refine forall₂_congr fun rule hrule => ⟨fun h _ => h, fun h => ?_⟩
  rintro ⟨t, left, hs, ht⟩
  cases t with
  | nil => exact Grammar.ne_nil_of_matches hrule ht rfl
  | cons d t =>
    obtain ⟨rfl, -⟩ := List.cons.inj hs
    exact h (Pattern.starts_of_matches ht) ⟨_, left, hs, ht⟩

/-- If only one rule can start with a character, its form decides. -/
theorem next?_cons_eq_none_iff_of_form (form : Form)
    (h : (Grammar.starting c).map Rule.form = [form]) :
    next? (c :: rest) = none ↔ ¬ form.pattern.Begins (c :: rest) := by
  obtain ⟨rule, hrule, rfl⟩ := List.map_eq_singleton_iff.1 h
  rw [next?_cons_eq_none_iff, hrule, List.forall_mem_singleton]

end Lexeme

/-! ## Plain and foreign characters -/

/-- The signs that start a lexeme, whatever follows. -/
def plainSigns : List Char :=
  [' ', '\t', '\n', ',', '(', ')', '\x7b', '\x7d', '[', ']', '+', '-', '*', '/', '%', '<', '>', '!',
    '=']

def isPlain (c : Char) : Bool :=
  c.isAlphanum || plainSigns.contains c

/-- The signs that start a lexeme only before certain texts. -/
def boundSigns : List Char :=
  ['\r', '.', '&', '|', ':', '#', '_', '$', '"', '\'', '\x60']

/-- The characters with which some lexeme starts. -/
def opensLexeme (c : Char) : Bool :=
  isPlain c || boundSigns.contains c

theorem exists_matches_of_isPlain {c : Char} (h : isPlain c = true) :
    ∃ rule ∈ Grammar.rules, rule.form.pattern.Matches [c] := by
  have hsigns : plainSigns.all (fun c =>
      Grammar.rules.any fun rule => decide (rule.form.pattern.Matches [c])) = true := by
    decide +kernel
  have hclass := List.mem_of_find?_eq_some (rfl : Grammar.named "class_call" = some _)
  have hvar := List.mem_of_find?_eq_some (rfl : Grammar.named "var_call" = some _)
  have hnumber := List.mem_of_find?_eq_some (rfl : Grammar.named "number" = some _)
  rw [isPlain, Bool.or_eq_true, List.contains_iff_mem] at h
  rcases h with halphanum | hsign
  · have hcases : (c.isUpper = true ∨ c.isLower = true) ∨ c.isDigit = true := by
      rwa [← Bool.or_eq_true, ← Bool.or_eq_true]
    rcases hcases with (hupper | hlower) | hdigit
    · have hname : className.Matches [c] := .seq (.one hupper) (.many (List.forall_mem_nil _))
      exact ⟨_, hclass, .seq hname (.text [])⟩
    · have hname : identifier.Matches [c] := .seq (.one hlower) (.many (List.forall_mem_nil _))
      exact ⟨_, hvar, .seq hname (.text [])⟩
    · have hdigits : digits.Matches [c] := .seq (.one hdigit) (.many (List.forall_mem_nil _))
      exact ⟨_, hnumber, .seq (.seq (.altRight (.text [])) (.seq hdigits (.altRight (.text []))))
        (.text [])⟩
  · obtain ⟨rule, hrule, hmatches⟩ := List.any_eq_true.1 (List.all_eq_true.1 hsigns c hsign)
    exact ⟨rule, hrule, of_decide_eq_true hmatches⟩

/-- A plain character is a lexeme, if it is not the start of a longer one. -/
theorem next?_ne_none_of_isPlain {c : Char} (h : isPlain c = true) (rest : List Char) :
    Lexeme.next? (c :: rest) ≠ none := by
  obtain ⟨rule, hrule, hmatches⟩ := exists_matches_of_isPlain h
  rw [Ne, Lexeme.next?_eq_none_iff]
  exact fun hnone => hnone rule hrule ⟨[c], rest, rfl, hmatches⟩

section

variable {c : Char} (hc : opensLexeme c = false)

include hc

theorem beq_of_foreign {d : Char} (hd : opensLexeme d = true) : (c == d) = false := by
  rw [beq_eq_false_iff_ne]
  rintro rfl
  rw [hc] at hd
  cases hd

theorem head?_beq_of_foreign {t : List Char} (ht : t.head?.all opensLexeme = true) :
    (t.head? == some c) = false := by
  rw [beq_eq_false_iff_ne]
  intro hhead
  rw [hhead, Option.all_some, hc] at ht
  cases ht

/-- No text of the grammar starts with another character. -/
theorem Grammar.starting_of_foreign : starting c = [] := by
  have hplain : isPlain c = false := (Bool.or_eq_false_iff.1 hc).1
  have halphanum : c.isAlphanum = false := (Bool.or_eq_false_iff.1 hplain).1
  obtain ⟨halpha, hdigit⟩ : c.isAlpha = false ∧ c.isDigit = false := Bool.or_eq_false_iff.1 halphanum
  obtain ⟨hupper, hlower⟩ : c.isUpper = false ∧ c.isLower = false := Bool.or_eq_false_iff.1 halpha
  rw [starting, List.filter_eq_nil_iff]
  simp (disch := decide) only [rules, rule, List.forall_mem_cons, Form.pattern, List.foldr_cons,
    List.foldr_nil, word, operand, fixed, marker, Pattern.optional, Pattern.anyOf, Pattern.fail,
    identifier, className, member, memberPath, digits, number, value, operator, isMemberStart,
    Pattern.starts, Pattern.nullable, halpha, hdigit, hupper, hlower,
    head?_beq_of_foreign hc, beq_of_foreign hc]
  simp

end

/-! ## Signs bound to what follows -/

/-- The name of an atom without its first colon. -/
def StartsAtom (s : List Char) : Prop :=
  ∃ name rest, identifier.Matches name ∧ s = name ++ ':' :: rest

/-- A call up to its parenthesis: two members or more with points between them, and a marker before
them or none. -/
def StartsCall (s : List Char) : Prop :=
  ∃ (deferred : Bool) (object : List Char) (members : List (List Char)) (rest : List Char),
    members ≠ [] ∧ (∀ m ∈ object :: members, member.Matches m) ∧
      s = (mark deferred).toList ++ object ++ members.flatMap ('.' :: ·) ++ '(' :: rest

theorem begins_call_iff {s : List Char} :
    (Form.pattern [Grammar.marker, Grammar.operand memberPath, Grammar.word ".",
      Grammar.operand member, Grammar.word "("]).Begins s ↔ StartsCall s := by
  rw [Form.begins_marker]
  constructor
  · rintro ⟨deferred, _, rfl, hcall⟩
    obtain ⟨path, _, rfl, hpath, hpoint⟩ := Form.begins_cons.1 hcall
    obtain ⟨_, rfl, hlast⟩ := Form.begins_word.1 hpoint
    obtain ⟨method, _, rfl, hmethod, hparen⟩ := Form.begins_cons.1 hlast
    obtain ⟨rest, rfl, -⟩ := Form.begins_word.1 hparen
    obtain ⟨object, _, hobject, hfurther, rfl⟩ := Pattern.matches_seq.1 hpath
    obtain ⟨members, hmembers, rfl⟩ := Pattern.matches_star_text_seq.1 hfurther
    refine ⟨deferred, object, members ++ [method], rest, by simp, ?_, by simp⟩
    simpa [or_imp, forall_and] using ⟨hobject, hmembers, hmethod⟩
  · rintro ⟨deferred, object, members, rest, hne, hmembers, rfl⟩
    rw [List.forall_mem_cons] at hmembers
    obtain ⟨hobject, hmembers⟩ := hmembers
    rcases List.eq_nil_or_concat members with rfl | ⟨path, method, rfl⟩
    · exact absurd rfl hne
    rw [List.concat_eq_append, List.forall_mem_append, List.forall_mem_singleton] at hmembers
    have hpath : memberPath.Matches (object ++ path.flatMap ('.' :: ·)) :=
      .seq hobject (Pattern.matches_star_text_seq.2 ⟨path, hmembers.1, rfl⟩)
    refine ⟨deferred, object ++ path.flatMap ('.' :: ·) ++ '.' :: (method ++ '(' :: rest),
      by simp, Form.begins_cons.2 ⟨_, _, rfl, hpath, Form.begins_word.2 ⟨_, rfl, ?_⟩⟩⟩
    exact Form.begins_cons.2 ⟨method, _, rfl, hmembers.2,
      Form.begins_word.2 ⟨rest, rfl, Form.begins_nil⟩⟩

/-- Whether a string that has been opened is closed. A backslash takes the next character with it.
Unless the string may run over several lines, it must be closed before the end of the line, and a
backslash before a line feed does not continue it. -/
def closes (quote : Char) (lines : Bool) : List Char → Bool
  | [] | ['\\'] => false
  | '\\' :: c :: rest => (lines || c != '\n') && closes quote lines rest
  | c :: rest => c == quote || (lines || !isLineEnd c) && closes quote lines rest

/-- The inside of a string: plain characters, and others behind a backslash. -/
def stringBody (plain escaped : Char → Bool) : Pattern :=
  .star (.alt (.one plain) (.seq (.text ['\\']) (.one escaped)))

/-- A body at the front of a text is followed by the quote. -/
def ClosedBy (quote : Char) (body : Pattern) (s : List Char) : Prop :=
  ∃ t rest, s = t ++ quote :: rest ∧ body.Matches t

section

variable {quote d : Char} {plain escaped : Char → Bool} {s : List Char}

theorem begins_quoted_iff {body : Pattern} {k : String} (hk : k.toList = [quote]) :
    (Form.pattern [Grammar.operand (.text [quote]), Grammar.operand body, Grammar.word k]).Begins
      (quote :: s) ↔ ClosedBy quote body s := by
  rw [Form.begins_cons]
  constructor
  · rintro ⟨_, _, hs, hopen, hbegins⟩
    obtain rfl := Pattern.matches_text.1 hopen
    obtain ⟨t, _, rfl, ht, hbegins⟩ := Form.begins_cons.1 hbegins
    obtain ⟨rest, rfl, -⟩ := Form.begins_word.1 hbegins
    rw [hk] at hs
    exact ⟨t, rest, (List.cons.inj hs).2, ht⟩
  · rintro ⟨t, rest, rfl, ht⟩
    refine ⟨[quote], _, rfl, .text _, Form.begins_cons.2 ⟨t, _, rfl, ht, ?_⟩⟩
    exact Form.begins_word.2 ⟨rest, by rw [hk]; rfl, Form.begins_nil⟩

theorem not_closedBy_nil {body : Pattern} : ¬ ClosedBy quote body [] := by
  simp [ClosedBy]

theorem closedBy_stringBody_cons :
    ClosedBy quote (stringBody plain escaped) (d :: s) ↔
      d = quote ∨ plain d = true ∧ ClosedBy quote (stringBody plain escaped) s ∨
      d = '\\' ∧ ∃ e rest, s = e :: rest ∧ escaped e = true ∧
        ClosedBy quote (stringBody plain escaped) rest := by
  constructor
  · rintro ⟨t, rest, hs, ht⟩
    rcases ht.star_cases with rfl | ⟨a, b, rfl, -, ha, hb⟩
    · exact .inl (List.cons.inj hs).1
    rcases Pattern.matches_alt.1 ha with ha | ha
    · obtain ⟨e, he, rfl⟩ := Pattern.matches_one.1 ha
      obtain ⟨rfl, rfl⟩ := List.cons.inj hs
      exact .inr (.inl ⟨he, b, rest, rfl, hb⟩)
    · obtain ⟨u, v, hu, hv, rfl⟩ := Pattern.matches_seq.1 ha
      obtain rfl := Pattern.matches_text.1 hu
      obtain ⟨e, he, rfl⟩ := Pattern.matches_one.1 hv
      obtain ⟨rfl, rfl⟩ := List.cons.inj hs
      exact .inr (.inr ⟨rfl, e, _, rfl, he, b, rest, rfl, hb⟩)
  · rintro (rfl | ⟨hd, t, rest, rfl, ht⟩ | ⟨rfl, e, _, rfl, he, t, rest, rfl, ht⟩)
    · exact ⟨[], s, rfl, .starNil⟩
    · exact ⟨d :: t, rest, rfl, .starCons (.altLeft (.one hd)) ht⟩
    · exact ⟨'\\' :: e :: t, rest, rfl, .starCons (.altRight (.seq (.text _) (.one he))) ht⟩

/-- Reading on from character to character finds the end of a string. -/
theorem closes_eq_true_iff {lines : Bool} (hquote : quote ≠ '\\')
    (hplain : ∀ c, plain c = true ↔ c ≠ quote ∧ c ≠ '\\' ∧ (lines || !isLineEnd c) = true)
    (hescaped : ∀ c, escaped c = (lines || c != '\n')) :
    closes quote lines s = true ↔ ClosedBy quote (stringBody plain escaped) s := by
  have hslash : plain '\\' = false := by
    rw [Bool.eq_false_iff, Ne, hplain]
    exact fun h => h.2.1 rfl
  fun_induction closes quote lines s with
  | case1 => simp [not_closedBy_nil]
  | case2 => simp [closedBy_stringBody_cons, not_closedBy_nil, hquote.symm, hslash]
  | case3 c rest ih =>
    rw [closedBy_stringBody_cons, ← hescaped]
    simp [hquote.symm, hslash, ih]
  | case4 c rest hnil hcons ih =>
    have hne : c ≠ '\\' := by
      rintro rfl
      cases rest with
      | nil => exact hnil rfl rfl
      | cons e rest => exact hcons e rest rfl rfl
    rw [closedBy_stringBody_cons]
    by_cases hc : c = quote
    · simp [hc]
    · have hplain' : (lines || !isLineEnd c) = plain c := by
        rw [Bool.eq_iff_iff, hplain]
        simp [hc, hne]
      simp [hc, hne, hplain', ih]

end

namespace Lexeme

variable {c : Char} {rest : List Char}

theorem next?_carriageReturn : next? ('\r' :: rest) = none ↔ rest.head? ≠ some '\n' := by
  rw [next?_cons_eq_none_iff_of_form
    [Grammar.fixed (.optional (.text ['\r'])), Grammar.word "\n"] rfl]
  refine not_congr ?_
  rw [Form.begins_cons]
  constructor
  · rintro ⟨t, left, hs, ht, hleft⟩
    obtain ⟨after, rfl, -⟩ := Form.begins_word.1 hleft
    rcases Pattern.matches_optional.1 ht with ht | rfl
    · obtain rfl := Pattern.matches_text.1 ht
      rw [(List.cons.inj hs).2]
      rfl
    · cases (List.cons.inj hs).1
  · intro h
    obtain ⟨after, rfl⟩ := List.head?_eq_some_iff.1 h
    exact ⟨['\r'], '\n' :: after, rfl, .altLeft (.text _),
      Form.begins_word.2 ⟨after, rfl, Form.begins_nil⟩⟩

theorem next?_point : next? ('.' :: rest) = none ↔ Pattern.Stops isMemberStart rest := by
  rw [next?_cons_eq_none_iff_of_form [Grammar.word ".", Grammar.operand member] rfl,
    Form.begins_word]
  constructor
  · intro h c hc
    rw [Bool.eq_false_iff]
    intro hstart
    obtain ⟨after, rfl⟩ := List.head?_eq_some_iff.1 hc
    have hmember : member.Matches [c] := .seq (.one hstart) (.many (List.forall_mem_nil _))
    exact h ⟨c :: after, rfl, Form.begins_cons.2 ⟨[c], after, rfl, hmember, Form.begins_nil⟩⟩
  · rintro h ⟨_, hs, hbegins⟩
    obtain ⟨t, after, rfl, ht, -⟩ := Form.begins_cons.1 hbegins
    obtain ⟨c, t, hc, -, rfl⟩ := Pattern.matches_leading.1 ht
    rw [(List.cons.inj hs).2] at h
    have hstop := h c rfl
    rw [hc] at hstop
    cases hstop

theorem next?_doubled (hc : c = '&' ∨ c = '|') :
    next? (c :: rest) = none ↔ rest.head? ≠ some c := by
  have hform : (Grammar.starting c).map Rule.form = [[Grammar.operand operator]] := by
    rcases hc with rfl | rfl <;> rfl
  rw [next?_cons_eq_none_iff_of_form _ hform, Form.begins_cons]
  refine not_congr ?_
  constructor
  · rintro ⟨t, left, hs, ht, -⟩
    rcases Pattern.matches_alt.1 ht with ht | ht
    · obtain ⟨k, hk, rfl⟩ := Pattern.matches_anyOf.1 ht
      simp only [List.mem_cons, List.not_mem_nil, or_false] at hk
      rcases hc with rfl | rfl <;>
        rcases hk with rfl | rfl | rfl | rfl | rfl | rfl | rfl | rfl <;> simp_all
    · obtain ⟨d, hd, rfl⟩ := Pattern.matches_one.1 ht
      obtain ⟨rfl, -⟩ := List.cons.inj hs
      rcases hc with rfl | rfl <;> cases hd
  · intro h
    obtain ⟨after, rfl⟩ := List.head?_eq_some_iff.1 h
    have hoperator : operator.Matches [c, c] := by rcases hc with rfl | rfl <;> decide
    exact ⟨[c, c], after, rfl, hoperator, Form.begins_nil⟩

theorem next?_colon : next? (':' :: rest) = none ↔ ¬ StartsAtom rest := by
  rw [next?_cons_eq_none_iff_of_form
    [Grammar.word ":", Grammar.operand identifier, Grammar.word ":"] rfl]
  refine not_congr ?_
  rw [Form.begins_word]
  constructor
  · rintro ⟨_, hs, hbegins⟩
    obtain ⟨name, _, rfl, hname, hbegins⟩ := Form.begins_cons.1 hbegins
    obtain ⟨after, rfl, -⟩ := Form.begins_word.1 hbegins
    exact ⟨name, after, hname, (List.cons.inj hs).2⟩
  · rintro ⟨name, after, hname, rfl⟩
    exact ⟨_, rfl, Form.begins_cons.2 ⟨name, _, rfl, hname,
      Form.begins_word.2 ⟨after, rfl, Form.begins_nil⟩⟩⟩

theorem next?_call (hc : c ∈ ['#', '_', '$']) :
    next? (c :: rest) = none ↔ ¬ StartsCall (c :: rest) := by
  have hform : (Grammar.starting c).map Rule.form = [[Grammar.marker, Grammar.operand memberPath,
      Grammar.word ".", Grammar.operand member, Grammar.word "("]] := by
    simp only [List.mem_cons, List.not_mem_nil, or_false] at hc
    rcases hc with rfl | rfl | rfl <;> rfl
  rw [next?_cons_eq_none_iff_of_form _ hform, begins_call_iff]

theorem next?_quote (hc : c = '"' ∨ c = '\'') :
    next? (c :: rest) = none ↔ closes c false rest = false := by
  have hform : (Grammar.starting c).map Rule.form = [[Grammar.operand (.text [c]),
      Grammar.operand (quotedBody c), Grammar.word (String.singleton c)]] := by
    rcases hc with rfl | rfl <;> rfl
  have hquote : c ≠ '\\' := by rcases hc with rfl | rfl <;> decide
  have hcloses : closes c false rest = true ↔ ClosedBy c (quotedBody c) rest :=
    closes_eq_true_iff hquote (by simp [and_assoc]) (fun _ => rfl)
  rw [next?_cons_eq_none_iff_of_form _ hform, ← Bool.not_eq_true, hcloses,
    begins_quoted_iff (String.toList_singleton c)]

theorem next?_backtick : next? ('\x60' :: rest) = none ↔ closes '\x60' true rest = false := by
  have hcloses : closes '\x60' true rest = true ↔ ClosedBy '\x60' templateBody rest :=
    closes_eq_true_iff (by decide) (by simp) (fun _ => rfl)
  rw [next?_cons_eq_none_iff_of_form [Grammar.operand (.text ['\x60']),
      Grammar.operand templateBody, Grammar.word "`"] rfl, ← Bool.not_eq_true, hcloses,
    begins_quoted_iff rfl]

end Lexeme

/-- The places where no lexeme starts, by the character that stands there and the text behind it. -/
inductive Stuck : Char → List Char → Prop where
  /-- A character that starts nothing. -/
  | foreign {c : Char} (rest : List Char) (h : opensLexeme c = false) : Stuck c rest
  | carriageReturn {rest : List Char} (h : rest.head? ≠ some '\n') : Stuck '\r' rest
  /-- A point without a member behind it. -/
  | point {rest : List Char} (h : Pattern.Stops isMemberStart rest) : Stuck '.' rest
  /-- One half of an operator. -/
  | single {c : Char} {rest : List Char} (hc : c = '&' ∨ c = '|') (h : rest.head? ≠ some c) :
    Stuck c rest
  | colon {rest : List Char} (h : ¬ StartsAtom rest) : Stuck ':' rest
  | noCall {c : Char} {rest : List Char} (hc : c ∈ ['#', '_', '$']) (h : ¬ StartsCall (c :: rest)) :
    Stuck c rest
  | openString {c : Char} {rest : List Char} (hc : c = '"' ∨ c = '\'')
    (h : closes c false rest = false) : Stuck c rest
  | openTemplate {rest : List Char} (h : closes '\x60' true rest = false) : Stuck '\x60' rest

theorem next?_of_stuck {c : Char} {rest : List Char} (h : Stuck c rest) :
    Lexeme.next? (c :: rest) = none := by
  cases h with
  | foreign _ h =>
    rw [Lexeme.next?_cons_eq_none_iff, Grammar.starting_of_foreign h]
    simp
  | carriageReturn h => exact Lexeme.next?_carriageReturn.2 h
  | point h => exact Lexeme.next?_point.2 h
  | single hc h => exact (Lexeme.next?_doubled hc).2 h
  | colon h => exact Lexeme.next?_colon.2 h
  | noCall hc h => exact (Lexeme.next?_call hc).2 h
  | openString hc h => exact (Lexeme.next?_quote hc).2 h
  | openTemplate h => exact Lexeme.next?_backtick.2 h

theorem stuck_of_next? {c : Char} {rest : List Char} (h : Lexeme.next? (c :: rest) = none) :
    Stuck c rest := by
  by_cases hbound : c ∈ boundSigns
  · simp only [boundSigns, List.mem_cons, List.not_mem_nil, or_false] at hbound
    rcases hbound with rfl | rfl | rfl | rfl | rfl | rfl | rfl | rfl | rfl | rfl | rfl
    · exact .carriageReturn (Lexeme.next?_carriageReturn.1 h)
    · exact .point (Lexeme.next?_point.1 h)
    · exact .single (.inl rfl) ((Lexeme.next?_doubled (.inl rfl)).1 h)
    · exact .single (.inr rfl) ((Lexeme.next?_doubled (.inr rfl)).1 h)
    · exact .colon (Lexeme.next?_colon.1 h)
    · exact .noCall (by decide) ((Lexeme.next?_call (by decide)).1 h)
    · exact .noCall (by decide) ((Lexeme.next?_call (by decide)).1 h)
    · exact .noCall (by decide) ((Lexeme.next?_call (by decide)).1 h)
    · exact .openString (.inl rfl) ((Lexeme.next?_quote (.inl rfl)).1 h)
    · exact .openString (.inr rfl) ((Lexeme.next?_quote (.inr rfl)).1 h)
    · exact .openTemplate (Lexeme.next?_backtick.1 h)
  · have hplain : isPlain c ≠ true := fun hplain => next?_ne_none_of_isPlain hplain rest h
    refine .foreign rest ?_
    rw [opensLexeme, Bool.or_eq_false_iff]
    simpa [hbound] using hplain

/-- A source of plain characters can be cut into lexemes to its end. -/
theorem exists_tokenize_of_isPlain {source : String} (h : ∀ c ∈ source.toList, isPlain c = true) :
    ∃ tokens, tokenize source = .ok tokens := by
  cases htokens : tokenize source with
  | ok tokens => exact ⟨tokens, rfl⟩
  | error fault =>
    obtain ⟨ls, c, rest, hscan, -⟩ := tokenize_eq_error_iff.1 htokens
    have hsource := (Lexeme.scan_eq source.toList).1
    rw [hscan] at hsource
    have hplain : isPlain c = true := h c (by rw [hsource]; simp)
    rw [← List.append_nil ls] at hscan
    have hnext := Lexeme.next?_of_scan_nil (Lexeme.scan_cut hscan).2
    exact absurd hnext (next?_ne_none_of_isPlain hplain rest)

/-- A scan that cannot even start reports the first character. -/
theorem tokenize_of_next?_eq_none {c : Char} {rest : List Char}
    (h : Lexeme.next? (c :: rest) = none) :
    tokenize (String.ofList (c :: rest)) = .error (.unexpectedCharacter c {}) := by
  have hscan := Lexeme.scan_of_next?_eq_none h
  rw [tokenize, String.toList_ofList, hscan]
  rfl

/-- The places where no lexeme starts, so that a scan stops there and reports the character. Plain
characters are not among them. -/
theorem next?_eq_none_iff_stuck :
    (∀ c rest, (Lexeme.next? (c :: rest) = none ↔ Stuck c rest) ∧
      (Stuck c rest →
        tokenize (String.ofList (c :: rest)) = .error (.unexpectedCharacter c {}))) ∧
    ∀ source : String, (∀ c ∈ source.toList, isPlain c = true) →
      ∃ tokens, tokenize source = .ok tokens := by
  refine ⟨fun c rest => ⟨⟨stuck_of_next?, next?_of_stuck⟩, fun h => ?_⟩, fun source h => ?_⟩
  · exact tokenize_of_next?_eq_none (next?_of_stuck h)
  · exact exists_tokenize_of_isPlain h

/-- A backslash before a line feed does not continue a string. Brackets need not be closed. -/
theorem next?_eq_none_iff_stuck_string :
    tokenize "\"a\\\n\"" = .error (.unexpectedCharacter '"' {}) ∧
    ∃ tokens, tokenize "if (x <= Y[0]" = .ok tokens := by
  have hstuck : Stuck '"' ['a', '\\', '\n', '"'] := .openString (.inl rfl) rfl
  exact ⟨(next?_eq_none_iff_stuck.1 _ _).2 hstuck,
    next?_eq_none_iff_stuck.2 "if (x <= Y[0]" (List.all_eq_true.1 (by decide +kernel))⟩

end Jawn
