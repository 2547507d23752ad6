import Jawn.Proofs.Preference

/-!
# Reading lexical classes

What must follow a text of a lexical class for the class to be read as this text and not as a
shorter one. A name or a number ends at the first character that cannot continue it. A quoted string
is closed by its own quote, so it is firm. A value of a condition ends at a comma, at a parenthesis
or at the end of the line, all outside of quotes.
-/

namespace Jawn.Lexical

open Pattern

variable {u r : List Char} {c quote : Char}

theorem prefers_identifier (h : identifier.Matches u) (hr : Stops isWord r) :
    identifier.Prefers u r :=
  prefers_leading h hr

theorem prefers_className (h : className.Matches u) (hr : Stops Char.isAlphanum r) :
    className.Prefers u r :=
  prefers_leading h hr

theorem prefers_functionName (h : functionName.Matches u) (hr : Stops isWord r) :
    functionName.Prefers u r :=
  prefers_leading h hr

theorem prefers_member (h : member.Matches u) (hr : Stops isMember r) : member.Prefers u r :=
  prefers_leading h hr

theorem prefers_digits (h : digits.Matches u) (hr : Stops Char.isDigit r) : digits.Prefers u r :=
  prefers_leading h hr

/-- A path starts with a member. -/
theorem stops_memberPath {ok : Char → Bool} (h : memberPath.Matches u)
    (hok : ∀ c, isMemberStart c = true → ok c = false) : Stops ok (u ++ r) := by
  obtain ⟨first, rest, hfirst, -, rfl⟩ := matches_seq.1 h
  obtain ⟨c, t, hc, -, rfl⟩ := matches_leading.1 hfirst
  exact stops_cons.2 (hok c hc)

/-! ## Numbers -/

/-- A number goes on with a digit or a point. -/
def continuesNumber (c : Char) : Bool :=
  c.isDigit || c == '.'

/-- A variable or a number goes on with a character of a word or a point. -/
def continuesValue (c : Char) : Bool :=
  isWord c || c == '.'

theorem stops_digit_of_number (h : Stops continuesNumber r) : Stops Char.isDigit r :=
  h.mono fun c hc => by simp [continuesNumber, hc]

theorem stops_point_of_number (h : Stops continuesNumber r) : Stops (· == '.') r :=
  h.mono fun c hc => by simp_all [continuesNumber]

/-- A number starts with a sign or a digit. -/
theorem exists_of_matches_number (h : number.Matches u) :
    ∃ d t, u = d :: t ∧ (d = '-' ∨ d.isDigit = true) := by
  obtain ⟨sign, unsigned, hsign, hunsigned, rfl⟩ := matches_seq.1 h
  rcases matches_optional.1 hsign with hsign | rfl
  · rw [matches_text.1 hsign]
    exact ⟨'-', unsigned, rfl, .inl rfl⟩
  · obtain ⟨whole, fraction, hwhole, -, rfl⟩ := matches_seq.1 hunsigned
    obtain ⟨d, ds, hd, -, rfl⟩ := matches_leading.1 hwhole
    exact ⟨d, ds ++ fraction, rfl, .inr hd⟩

theorem prefers_number (h : number.Matches u) (hr : Stops continuesNumber r) :
    number.Prefers u r := by
  obtain ⟨sign, unsigned, hsign, hunsigned, rfl⟩ := matches_seq.1 h
  obtain ⟨whole, fraction, hwhole, hfraction, rfl⟩ := matches_seq.1 hunsigned
  have hdigit := stops_digit_of_number hr
  have hpoint := stops_point_of_number hr
  refine prefers_seq ?sign (prefers_seq ?whole ?fraction)
  case sign =>
    obtain ⟨d, ds, hd, -, rfl⟩ := matches_leading.1 hwhole
    refine firm_text.prefers_optional hsign fun _ => ends_text_eq_nil ?_
    rw [List.cons_append, List.cons_append, stops_cons, beq_eq_false_iff_ne]
    rintro rfl
    cases hd
  case whole =>
    refine prefers_digits hwhole ?_
    rcases matches_optional.1 hfraction with hfraction | rfl
    · obtain ⟨_, _, hp, -, rfl⟩ := matches_seq.1 hfraction
      rw [matches_text.1 hp]
      exact stops_cons.2 rfl
    · exact hdigit
  case fraction =>
    rcases matches_optional.1 hfraction with hfraction | rfl
    · obtain ⟨_, _, hp, hdigits, rfl⟩ := matches_seq.1 hfraction
      exact prefers_altLeft (prefers_seq (firm_text _ _ hp) (prefers_digits hdigits hdigit))
    · exact prefers_none (ends_seq_eq_nil (ends_text_eq_nil hpoint))

theorem prefers_value (h : value.Matches u) (hr : Stops continuesValue r) : value.Prefers u r := by
  rcases matches_alt.1 h with h | h
  · exact prefers_altLeft (prefers_identifier h (hr.mono fun c hc => by simp [continuesValue, hc]))
  · have hnumber : Stops continuesNumber r := by
      refine hr.mono fun c hc => ?_
      rcases Bool.or_eq_true_iff.1 hc with hc | hc
      · simp [continuesValue, isWord, Char.isAlphanum, hc]
      · simp [continuesValue, hc]
    refine prefers_altRight (ends_seq_eq_nil (ends_one_eq_nil ?_)) (prefers_number h hnumber)
    obtain ⟨d, t, rfl, rfl | hd⟩ := exists_of_matches_number h
    · exact stops_cons.2 rfl
    · exact stops_cons.2 (isLower_of_isDigit hd)

/-- All digits of a probability without a point are read at first, and the last one is given
back. -/
theorem prefers_probability_digits {front : List Char} {last : Char}
    (hfront : ∀ c ∈ front, c.isDigit = true) (hlast : last.isDigit = true)
    (hdigit : Stops Char.isDigit r) (hpoint : Stops (· == '.') r) :
    probability.Prefers (front ++ [last]) r := by
  obtain ⟨shorter, hends⟩ := exists_runEnds_append hfront (last :: r) []
  rw [runEnds, if_pos hlast, runEnds_of_stops hdigit] at hends
  have hnone : (Pattern.seq (optional (.text ['.'])) digits).ends r = [] := by
    have hskip : (optional (.text ['.'])).ends r = [r] := by
      rw [Pattern.optional, ends, ends_text_eq_nil hpoint]
      simp [ends]
    rw [ends, hskip, List.flatMap_singleton, digits, ends_seq_eq_nil (ends_one_eq_nil hdigit)]
  have hone : (Pattern.seq (optional (.text ['.'])) digits).Prefers ([] ++ [last]) r := by
    refine prefers_seq (prefers_none (ends_text_eq_nil ?_)) (prefers_digits ?_ hdigit)
    · rw [List.singleton_append, stops_cons, beq_eq_false_iff_ne]
      rintro rfl
      cases hlast
    · exact matches_leading.2 ⟨last, [], hlast, by simp, rfl⟩
  have hhead : ((Pattern.seq (optional (.text ['.'])) digits).ends (last :: r)).head? = some r :=
    hone
  rw [Prefers, probability, ends, ends, List.append_assoc, List.singleton_append, hends,
    List.flatMap_cons, hnone, List.nil_append, List.flatMap_cons, List.head?_append, hhead,
    Option.some_or]

theorem prefers_probability (h : probability.Matches u) (hr : Stops continuesNumber r) :
    probability.Prefers u r := by
  have hdigit := stops_digit_of_number hr
  have hpoint := stops_point_of_number hr
  obtain ⟨whole, rest, hwhole, hrest, rfl⟩ := matches_seq.1 h
  obtain ⟨point, fraction, hp, hfraction, rfl⟩ := matches_seq.1 hrest
  rw [matches_many] at hwhole
  rcases matches_optional.1 hp with hp | rfl
  · refine prefers_seq (prefers_many hwhole ?_)
      (prefers_seq (prefers_altLeft (firm_text _ _ hp)) (prefers_digits hfraction hdigit))
    rw [matches_text.1 hp]
    exact stops_cons.2 rfl
  · obtain ⟨d, ds, hd, hds, rfl⟩ := matches_leading.1 hfraction
    have hsplit := List.dropLast_concat_getLast (l := whole ++ d :: ds) (by simp)
    have hall : ∀ c ∈ whole ++ d :: ds, c.isDigit = true := by
      rw [List.forall_mem_append, List.forall_mem_cons]
      exact ⟨hwhole, hd, hds⟩
    rw [← hsplit, List.forall_mem_append, List.forall_mem_singleton] at hall
    rw [List.nil_append, ← hsplit]
    exact prefers_probability_digits hall.1 hall.2 hdigit hpoint

/-! ## Quoted strings and values of conditions -/

/-- The inside of a string runs up to a quote: a backslash takes the next character with it, and the
other characters are neither backslash nor quote. -/
theorem prefers_escaped {ok ok' : Char → Bool} (hbackslash : ok '\\' = false)
    (hquote : ok quote = false) (hne : quote ≠ '\\')
    (h : (Pattern.star (.alt (.one ok) (.seq (.text ['\\']) (.one ok')))).Matches u) :
    Prefers (.star (.alt (.one ok) (.seq (.text ['\\']) (.one ok')))) u (quote :: r) := by
  refine Firm.prefers_star (firm_alt firm_one (firm_seq firm_text firm_one) fun s => ?_) h ?_
  · cases s with
    | nil => exact .inl rfl
    | cons c s =>
      by_cases hc : c = '\\'
      · subst hc
        exact .inl (ends_one_eq_nil (stops_cons.2 hbackslash))
      · exact .inr (ends_seq_eq_nil (ends_text_eq_nil (by simpa using hc)))
  · rw [ends, ends_one_eq_nil (stops_cons.2 hquote),
      ends_seq_eq_nil (ends_text_eq_nil (by simpa using hne)), List.append_nil]

theorem prefers_quotedBody (hne : quote ≠ '\\') (h : (quotedBody quote).Matches u) :
    (quotedBody quote).Prefers u (quote :: r) :=
  prefers_escaped (by simp) (by simp) hne h

theorem prefers_templateBody (h : templateBody.Matches u) : templateBody.Prefers u ('\x60' :: r) :=
  prefers_escaped rfl rfl (by decide) h

theorem firm_quoted (hne : quote ≠ '\\') : (quoted quote).Firm := by
  intro u r h
  obtain ⟨left, rest, hleft, hrest, rfl⟩ := matches_seq.1 h
  obtain ⟨body, right, hbody, hright, rfl⟩ := matches_seq.1 hrest
  obtain rfl := matches_text.1 hright
  exact prefers_seq (firm_text _ _ hleft) (prefers_seq (prefers_quotedBody hne hbody) prefers_text)

/-- One round of a value of a condition. -/
def conditionItem : Pattern :=
  .alt (quoted '"') (.alt (quoted '\'')
    (.one fun c => !(c == ',' || c == '(' || c == ')' || c == '"' || c == '\'' || isLineEnd c)))

theorem ends_quoted (h : Stops (· == quote) r) : (quoted quote).ends r = [] :=
  ends_seq_eq_nil (ends_text_eq_nil h)

theorem firm_conditionItem : conditionItem.Firm := by
  refine firm_alt (firm_quoted (by decide)) (firm_alt (firm_quoted (by decide)) firm_one ?_) ?_
  · intro s
    cases s with
    | nil => exact .inr rfl
    | cons c s =>
      by_cases hc : c = '\''
      · exact .inr (ends_one_eq_nil (by simp [hc]))
      · exact .inl (ends_quoted (by simpa using hc))
  · intro s
    cases s with
    | nil => exact .inl rfl
    | cons c s =>
      by_cases hc : c = '"'
      · refine .inr ?_
        rw [ends, ends_quoted (by simp [hc]), ends_one_eq_nil (by simp [hc]), List.append_nil]
      · exact .inl (ends_quoted (by simpa using hc))

/-- A value of a condition goes on with any character but these. -/
def continuesCondition (c : Char) : Bool :=
  !(c == ',' || c == '(' || c == ')' || isLineEnd c)

theorem ends_conditionItem (h : Stops continuesCondition r) : conditionItem.ends r = [] := by
  have hclass : ∀ c, (c == '"') = true ∨ (c == '\'') = true ∨
      (!(c == ',' || c == '(' || c == ')' || c == '"' || c == '\'' || isLineEnd c)) = true →
      continuesCondition c = true := by
    rintro c (hc | hc | hc)
    · rw [eq_of_beq hc]
      rfl
    · rw [eq_of_beq hc]
      rfl
    · simp_all [continuesCondition]
  rw [conditionItem, ends, ends, ends_quoted (h.mono fun c hc => hclass c (.inl hc)),
    ends_quoted (h.mono fun c hc => hclass c (.inr (.inl hc))),
    ends_one_eq_nil (h.mono fun c hc => hclass c (.inr (.inr hc)))]
  rfl

theorem prefers_conditionValue (h : conditionValue.Matches u) (hr : Stops continuesCondition r) :
    conditionValue.Prefers u r := by
  obtain ⟨item, items, hitem, hitems, rfl⟩ := matches_seq.1 h
  exact prefers_seq (firm_conditionItem _ _ hitem)
    (firm_conditionItem.prefers_star hitems (ends_conditionItem hr))

/-- Further values start with a comma, so a value stops before them. -/
theorem stops_further (h : (Pattern.star (.seq (.text [',']) conditionValue)).Matches u)
    (hr : Stops continuesCondition r) : Stops continuesCondition (u ++ r) := by
  rcases h.star_cases with rfl | ⟨a, b, rfl, -, ha, -⟩
  · exact hr
  · obtain ⟨comma, value, hcomma, -, rfl⟩ := matches_seq.1 ha
    obtain rfl := matches_text.1 hcomma
    exact stops_cons.2 rfl

theorem prefers_conditionValues (h : conditionValues.Matches u)
    (hr : Stops continuesCondition r) (hcomma : Stops (· == ',') r) :
    conditionValues.Prefers u r := by
  obtain ⟨value, values, hvalue, hvalues, rfl⟩ := matches_seq.1 h
  refine prefers_seq (prefers_conditionValue hvalue (stops_further hvalues hr))
    (prefers_star hvalues ?_ (ends_seq_eq_nil (ends_text_eq_nil hcomma)))
  intro a b ha hb
  obtain ⟨comma, value', htext, hvalue', rfl⟩ := matches_seq.1 ha
  exact prefers_seq (firm_text _ _ htext) (prefers_conditionValue hvalue' (stops_further hb hr))

/-! ## Operators and rests of lines -/

/-- Only an equals sign can make a comparison longer. -/
theorem prefers_comparison (h : comparison.Matches u) (hr : Stops (· == '=') r) :
    comparison.Prefers u r := by
  obtain ⟨t, ht, rfl⟩ := matches_anyOf.1 h
  simp only [List.mem_cons, List.not_mem_nil, or_false] at ht
  cases r with
  | nil => rcases ht with rfl | rfl | rfl | rfl | rfl | rfl | rfl | rfl <;> rfl
  | cons c r =>
    have hc : c ≠ '=' := by simpa using hr
    rcases ht with rfl | rfl | rfl | rfl | rfl | rfl | rfl | rfl <;>
      simp [comparison, anyOf, Prefers, ends, hc.symm]

/-- The space behind a comma is taken by its own part, as a comparison does not start with one. -/
theorem prefers_gap {gap operator : String} (hgap : gap = "" ∨ gap = " ")
    (h : comparison.Accepts operator) :
    Prefers (optional (.text [' '])) gap.toList (operator.toList ++ r) := by
  rcases hgap with rfl | rfl
  · refine prefers_none (ends_text_eq_nil ?_)
    obtain ⟨t, ht, hoperator⟩ := matches_anyOf.1 h
    rw [hoperator]
    simp only [List.mem_cons, List.not_mem_nil, or_false] at ht
    rcases ht with rfl | rfl | rfl | rfl | rfl | rfl | rfl | rfl <;> exact stops_cons.2 rfl
  · exact prefers_altLeft prefers_text

theorem firm_magnitudeSign : magnitudeSign.Firm := by
  intro u r h
  obtain ⟨t, ht, rfl⟩ := matches_anyOf.1 h
  simp only [List.mem_cons, List.not_mem_nil, or_false] at ht
  rcases ht with rfl | rfl <;> rfl

theorem firm_shiftWord : shiftWord.Firm := by
  intro u r h
  obtain ⟨t, ht, rfl⟩ := matches_anyOf.1 h
  simp only [List.mem_cons, List.not_mem_nil, or_false] at ht
  rcases ht with rfl | rfl <;> rfl

theorem prefers_operator (h : operator.Matches u) : operator.Prefers u [] := by
  rcases matches_alt.1 h with h | h
  · obtain ⟨t, ht, rfl⟩ := matches_anyOf.1 h
    simp only [List.mem_cons, List.not_mem_nil, or_false] at ht
    rcases ht with rfl | rfl | rfl | rfl | rfl | rfl | rfl | rfl <;> rfl
  · refine prefers_altRight ?_ (firm_one _ _ h)
    obtain ⟨c, hc, rfl⟩ := matches_one.1 h
    rw [ends_eq_nil_iff]
    intro t s hts ht
    -- A single character is too short for the operators of two or three.
    obtain ⟨text, htext, rfl⟩ := matches_anyOf.1 ht
    have hlong : 2 ≤ text.toList.length := by
      clear hts ht
      revert text
      decide
    have hlength := congrArg List.length hts
    simp only [List.length_append, List.length_cons, List.length_nil] at hlength
    omega

theorem prefers_restOfLine (h : restOfLine.Matches u) : restOfLine.Prefers u [] :=
  prefers_many (matches_many.1 h) stops_nil

theorem prefers_declaredValue (h : declaredValue.Matches u) : declaredValue.Prefers u [] := by
  rcases matches_optional.1 h with h | rfl
  · refine prefers_altLeft ?_
    rcases matches_alt.1 h with h | h
    · obtain ⟨first, rest, hfirst, hrest, rfl⟩ := matches_seq.1 h
      exact prefers_altLeft (prefers_seq (firm_one _ _ hfirst) (prefers_restOfLine hrest))
    · obtain ⟨colon, tail, hcolon, htail, rfl⟩ := matches_seq.1 h
      obtain ⟨second, rest, hsecond, hrest, rfl⟩ := matches_seq.1 htail
      obtain rfl := matches_text.1 hcolon
      refine prefers_altRight (ends_seq_eq_nil (ends_one_eq_nil (by simp))) ?_
      exact prefers_seq prefers_text (prefers_seq (firm_one _ _ hsecond) (prefers_restOfLine hrest))
  · exact prefers_none rfl

/-! ## Characters that a class excludes -/

theorem space_notMem_identifier (h : identifier.Matches u) : ' ' ∉ u :=
  not_mem_of_matches h rfl

theorem space_notMem_value (h : value.Matches u) : ' ' ∉ u :=
  not_mem_of_matches h rfl

theorem space_notMem_comparison (h : comparison.Matches u) : ' ' ∉ u :=
  not_mem_of_matches h rfl

theorem point_notMem_member (h : member.Matches u) : '.' ∉ u :=
  not_mem_of_matches h rfl

theorem paren_notMem_member (h : member.Matches u) : '(' ∉ u :=
  not_mem_of_matches h rfl

theorem paren_notMem_memberPath (h : memberPath.Matches u) : '(' ∉ u :=
  not_mem_of_matches h rfl

end Jawn.Lexical
