import Jawn.Proofs.Comparisons
import Jawn.Proofs.Standalone

/-!
# Commas between the values of a condition

The values of one operator are found by looking for values again and again in an operand that was
read by another pattern. Here they are told apart in a second way, from character to character:
`Condition.Quoting` knows whether it is inside a string, and `Condition.cut` cuts at each comma that
is not.

* `Condition.read_spacedValues`: it is the same whether the space that may follow a comma is a part of
  the value;
* `Condition.intercalate_cut`: only the commas at the cuts are lost;
* `Condition.uncut_of_matches`: no value has a cut inside, since its strings are closed;
* `Condition.pieces_eq_cut`: the pieces of an operand are what is between its cuts;
* `Condition.infix_of_mem_cut`, `Condition.infix_trim`: a string stays in one piece and is not
  trimmed;
* `Condition.splits_of_ofName?`: the values of a condition that was read by its rule.
-/

namespace Jawn

open Lexical Pattern

namespace Condition

/-! ## The space behind a comma -/

/-- A space in front of a value can be taken into the value. -/
theorem ends_conditionValue_space (s : List Char) :
    conditionValue.ends (' ' :: s) = conditionValue.ends s ++ [s] := by
  have hitem : conditionItem.ends (' ' :: s) = [s] := rfl
  calc conditionValue.ends (' ' :: s)
      = (conditionItem.ends (' ' :: s)).flatMap (Pattern.star conditionItem).ends := rfl
    _ = (Pattern.star conditionItem).ends s := by rw [hitem, List.flatMap_singleton]
    _ = conditionValue.ends s ++ [s] := ends_star rfl

theorem readsAs_conditionValue :
    (Pattern.seq (Pattern.optional (.text [' '])) conditionValue).ReadsAs conditionValue := by
  intro α s f
  by_cases hs : s.head? = some ' '
  · obtain ⟨s, rfl⟩ := List.head?_eq_some_iff.1 hs
    have hends : (Pattern.seq (Pattern.optional (.text [' '])) conditionValue).ends (' ' :: s) =
        conditionValue.ends s ++ conditionValue.ends (' ' :: s) := by
      simp [ends, Pattern.optional]
    -- Without the space the same is tried first, so trying it before makes no difference.
    rw [hends, ends_conditionValue_space, List.findSome?_append, List.findSome?_append]
    cases (conditionValue.ends s).findSome? f <;> rfl
  · have hends : (Pattern.seq (Pattern.optional (.text [' '])) conditionValue).ends s =
        conditionValue.ends s := by
      rw [ends, Pattern.optional, ends, ends_text_eq_nil (stops_beq_iff.2 hs)]
      simp [ends]
    rw [hends]

/-- Values of a condition, if the one space that may follow a comma is no part of a value. -/
def spacedValues : Pattern :=
  .seq conditionValue
    (.star (.seq (.text [',']) (.seq (Pattern.optional (.text [' '])) conditionValue)))

/-- To every form it is the same whether the space behind a comma is a part of the value. -/
theorem read_spacedValues (role : Role) (before after : Form) (s : List Char) :
    Form.read (before ++ ⟨role, spacedValues⟩ :: after) s =
      Form.read (before ++ ⟨role, conditionValues⟩ :: after) s := by
  have hfurther := (ReadsAs.refl (.text [','])).seq readsAs_conditionValue
  exact Form.read_of_readsAs ((ReadsAs.refl conditionValue).seq hfurther.star) before after s

/-! ## Cutting at commas -/

/-- A place in a text: outside of strings, inside one with its quote, or there behind a
backslash. -/
inductive Quoting where
  | outside
  | inside (quote : Char)
  | escaped (quote : Char)
  deriving DecidableEq, Repr

namespace Quoting

/-- The place behind one more character. A string is closed by the quote that opened it, unless a
backslash stands before it. -/
def pass : Quoting → Char → Quoting
  | outside, c => if c = '"' ∨ c = '\'' then inside c else outside
  | inside quote, c =>
    if c = '\\' then escaped quote else if c = quote then outside else inside quote
  | escaped quote, _ => inside quote

/-- The place behind a text. -/
def after (q : Quoting) (t : List Char) : Quoting :=
  t.foldl pass q

end Quoting

/-- Puts a text in front of the first of some pieces. -/
def glue (t : List Char) (pieces : List (List Char)) : List (List Char) :=
  pieces.modifyHead (t ++ ·)

/-- Cuts a text that starts at a place at each of its commas outside of strings. -/
def cut : Quoting → List Char → List (List Char)
  | _, [] => [[]]
  | q, c :: t =>
    if q = .outside ∧ c = ',' then [] :: cut .outside t else glue [c] (cut (q.pass c) t)

variable {q : Quoting} {c quote : Char} {t u v r : List Char} {ps : List (List Char)}

@[simp]
theorem glue_nil (ps : List (List Char)) : glue [] ps = ps := by
  cases ps <;> rfl

@[simp]
theorem glue_cons (t u : List Char) (ps : List (List Char)) : glue t (u :: ps) = (t ++ u) :: ps :=
  rfl

@[simp]
theorem glue_glue (t u : List Char) (ps : List (List Char)) :
    glue t (glue u ps) = glue (t ++ u) ps := by
  cases ps <;> simp [glue]

theorem intercalate_glue (t : List Char) (h : ps ≠ []) :
    [','].intercalate (glue t ps) = t ++ [','].intercalate ps := by
  obtain ⟨u, ps, rfl⟩ := List.exists_cons_of_ne_nil h
  cases ps <;> simp [List.intercalate_cons_cons]

theorem cut_comma (t : List Char) : cut .outside (',' :: t) = [] :: cut .outside t := by
  rw [cut, if_pos ⟨rfl, rfl⟩]

theorem cut_cons (h : ¬ (q = .outside ∧ c = ',')) (t : List Char) :
    cut q (c :: t) = glue [c] (cut (q.pass c) t) := by
  rw [cut, if_neg h]

theorem cut_inside (q : Quoting) (hq : q ≠ .outside) (c : Char) (t : List Char) :
    cut q (c :: t) = glue [c] (cut (q.pass c) t) :=
  cut_cons (fun h => hq h.1) t

theorem cut_ne_nil (q : Quoting) (t : List Char) : cut q t ≠ [] := by
  induction t generalizing q with
  | nil => simp [cut]
  | cons c t ih =>
    rw [cut]
    split
    · simp
    · simpa [glue] using ih (q.pass c)

/-- Only the commas at the cuts are lost. -/
theorem intercalate_cut (q : Quoting) (t : List Char) : [','].intercalate (cut q t) = t := by
  induction t generalizing q with
  | nil => rfl
  | cons c t ih =>
    rw [cut]
    split
    · rename_i hcomma
      obtain ⟨piece, pieces, hcut⟩ := List.exists_cons_of_ne_nil (cut_ne_nil .outside t)
      have ih := ih .outside
      rw [hcut] at ih
      rw [hcut, List.intercalate_cons_cons, ih, hcomma.2]
      rfl
    · rw [intercalate_glue _ (cut_ne_nil _ t), ih]
      rfl

/-- What follows a text is cut from the place behind it on, and its first piece goes on where the
last piece of the text ends. -/
theorem exists_cut_append (q : Quoting) (t : List Char) :
    ∃ pieces last, cut q t = pieces ++ [last] ∧
      ∀ r, cut q (t ++ r) = pieces ++ glue last (cut (q.after t) r) := by
  induction t generalizing q with
  | nil => exact ⟨[], [], rfl, fun r => by rw [glue_nil]; rfl⟩
  | cons c t ih =>
    by_cases hcomma : q = .outside ∧ c = ','
    · obtain ⟨rfl, rfl⟩ := hcomma
      obtain ⟨pieces, last, hcut, happend⟩ := ih .outside
      refine ⟨[] :: pieces, last, ?_, fun r => ?_⟩
      · rw [cut_comma, hcut, List.cons_append]
      · rw [List.cons_append, cut_comma, happend]
        rfl
    · obtain ⟨pieces, last, hcut, happend⟩ := ih (q.pass c)
      -- The character belongs to the first piece, which may be the last one at the same time.
      cases pieces with
      | nil =>
        refine ⟨[], c :: last, ?_, fun r => ?_⟩
        · rw [cut_cons hcomma, hcut]
          rfl
        · rw [List.cons_append, cut_cons hcomma, happend, List.nil_append, glue_glue]
          rfl
      | cons piece pieces =>
        refine ⟨(c :: piece) :: pieces, last, ?_, fun r => ?_⟩
        · rw [cut_cons hcomma, hcut]
          rfl
        · rw [List.cons_append, cut_cons hcomma, happend]
          rfl

/-! ## Values have no cuts -/

/-- A text that starts outside of strings and is not cut, whatever follows. -/
def Uncut (t : List Char) : Prop :=
  ∀ r, cut .outside (t ++ r) = glue t (cut .outside r)

theorem uncut_nil : Uncut [] := by
  intro r
  rw [glue_nil, List.nil_append]

theorem Uncut.append (ht : Uncut t) (hu : Uncut u) : Uncut (t ++ u) := by
  intro r
  rw [List.append_assoc, ht, hu, glue_glue]

/-- The inside of a string is not cut. -/
theorem cut_quotedBody (h : (quotedBody quote).Matches t) (r : List Char) :
    cut (.inside quote) (t ++ r) = glue t (cut (.inside quote) r) := by
  refine h.star_induction (motive := fun t => cut (.inside quote) (t ++ r) =
    glue t (cut (.inside quote) r)) (by simp) ?_
  intro a b ha _ ih
  rcases matches_alt.1 ha with ha | ha
  · obtain ⟨c, hc, rfl⟩ := matches_one.1 ha
    have hpass : (Quoting.inside quote).pass c = .inside quote := by
      simp_all [Quoting.pass]
    rw [List.append_assoc, List.singleton_append, cut_inside _ (by simp), hpass, ih, glue_glue]
  · obtain ⟨backslash, escape, hbackslash, hescape, rfl⟩ := matches_seq.1 ha
    obtain rfl := matches_text.1 hbackslash
    obtain ⟨c, -, rfl⟩ := matches_one.1 hescape
    have hpass : (Quoting.inside quote).pass '\\' = .escaped quote := rfl
    have hpass' : (Quoting.escaped quote).pass c = .inside quote := rfl
    rw [List.append_assoc, List.append_assoc, List.singleton_append, List.singleton_append,
      cut_inside _ (by simp), hpass, cut_inside _ (by simp), hpass', ih, glue_glue, glue_glue,
      List.append_assoc]

theorem uncut_of_quoted (hquote : quote = '"' ∨ quote = '\'') (h : (quoted quote).Matches t) :
    Uncut t := by
  obtain ⟨left, rest, hleft, hrest, rfl⟩ := matches_seq.1 h
  obtain ⟨body, right, hbody, hright, rfl⟩ := matches_seq.1 hrest
  obtain rfl := matches_text.1 hleft
  obtain rfl := matches_text.1 hright
  have hopen : Quoting.outside.pass quote = .inside quote := if_pos hquote
  have hclose : (Quoting.inside quote).pass quote = .outside := by
    rcases hquote with rfl | rfl <;> rfl
  have hcomma : quote ≠ ',' := by
    rcases hquote with rfl | rfl <;> decide
  intro r
  rw [List.append_assoc, List.singleton_append, List.append_assoc, List.singleton_append,
    cut_cons (by simp [hcomma]), hopen, cut_quotedBody hbody, cut_inside _ (by simp), hclose,
    glue_glue, glue_glue, List.append_assoc]

theorem uncut_of_item (h : conditionItem.Matches t) : Uncut t := by
  rcases matches_alt.1 h with h | h
  · exact uncut_of_quoted (.inl rfl) h
  rcases matches_alt.1 h with h | h
  · exact uncut_of_quoted (.inr rfl) h
  · obtain ⟨c, hc, rfl⟩ := matches_one.1 h
    simp only [Bool.not_eq_true', Bool.or_eq_false_iff, beq_eq_false_iff_ne, ne_eq] at hc
    obtain ⟨⟨⟨⟨⟨hcomma, -⟩, -⟩, hdouble⟩, hsingle⟩, -⟩ := hc
    have hpass : Quoting.outside.pass c = .outside := if_neg (by simp [hdouble, hsingle])
    intro r
    rw [List.singleton_append, cut_cons (by simp [hcomma]), hpass]

/-- No value of a condition has a cut inside. -/
theorem uncut_of_matches (h : conditionValue.Matches t) : Uncut t := by
  obtain ⟨item, items, hitem, hitems, rfl⟩ := matches_seq.1 h
  refine (uncut_of_item hitem).append ?_
  exact hitems.star_induction uncut_nil fun a b ha _ hb => (uncut_of_item ha).append hb

theorem cut_intercalate {vs : List (List Char)} (h : ∀ w ∈ v :: vs, conditionValue.Matches w) :
    cut .outside ([','].intercalate (v :: vs)) = v :: vs := by
  induction vs generalizing v with
  | nil =>
    have hcut := uncut_of_matches (h v (by simp)) []
    rw [List.append_nil] at hcut
    rw [List.intercalate_singleton, hcut, cut, glue_cons, List.append_nil]
  | cons w vs ih =>
    rw [List.forall_mem_cons] at h
    rw [List.intercalate_cons_cons, List.append_assoc, List.singleton_append,
      uncut_of_matches h.1, cut_comma, ih h.2, glue_cons, List.append_nil]

/-- The pieces of an operand with all values of one operator are what is between its cuts. -/
theorem pieces_eq_cut (h : conditionValues.Matches t) : pieces t = cut .outside t := by
  obtain ⟨v, vs, rfl, hvs⟩ := exists_of_matches_conditionValues h
  rw [pieces_intercalate hvs, cut_intercalate hvs]

/-! ## Strings in values -/

/-- A string that stands outside of other strings stays in one piece. -/
theorem infix_of_mem_cut (hu : Quoting.outside.after u = .outside)
    (hquote : quote = '"' ∨ quote = '\'') (ht : (quoted quote).Matches t) (r : List Char) :
    ∃ piece ∈ cut .outside (u ++ t ++ r), t <:+: piece := by
  obtain ⟨pieces, last, -, hcut⟩ := exists_cut_append .outside u
  obtain ⟨piece, further, hr⟩ := List.exists_cons_of_ne_nil (cut_ne_nil .outside r)
  refine ⟨last ++ t ++ piece, ?_, last, piece, rfl⟩
  rw [List.append_assoc, hcut, hu, uncut_of_quoted hquote ht, hr, glue_glue, glue_cons]
  simp

/-- A quote is no white space, so a string is trimmed. -/
theorem trimmed_of_quoted (hquote : quote = '"' ∨ quote = '\'') (h : (quoted quote).Matches t) :
    t ≠ [] ∧ Trimmed t := by
  obtain ⟨left, rest, hleft, hrest, rfl⟩ := matches_seq.1 h
  obtain ⟨body, right, hbody, hright, rfl⟩ := matches_seq.1 hrest
  obtain rfl := matches_text.1 hleft
  obtain rfl := matches_text.1 hright
  have hblank : isBlank quote = false := by
    rcases hquote with rfl | rfl <;> rfl
  refine ⟨by simp, stops_cons.2 hblank, ?_⟩
  rw [List.reverse_append, List.reverse_append]
  exact stops_cons.2 hblank

theorem exists_dropWhile_append {ok : Char → Bool} (h : Stops ok t) (hne : t ≠ [])
    (u r : List Char) : ∃ u', (u ++ (t ++ r)).dropWhile ok = u' ++ (t ++ r) := by
  have hstops : Stops ok (t ++ r) := by
    obtain ⟨c, t, rfl⟩ := List.exists_cons_of_ne_nil hne
    simpa using h
  rw [List.dropWhile_append, dropWhile_of_stops hstops]
  split
  · exact ⟨[], rfl⟩
  · exact ⟨u.dropWhile ok, rfl⟩

/-- What has no white space at its ends stays whole when a text around it is trimmed. -/
theorem infix_trim (hne : t ≠ []) (ht : Trimmed t) (h : t <:+: u) : t <:+: trim u := by
  obtain ⟨left, right, rfl⟩ := h
  obtain ⟨left', hleft⟩ := exists_dropWhile_append ht.1 hne left right
  obtain ⟨right', hright⟩ := exists_dropWhile_append ht.2 (by simpa using hne) right.reverse
    left'.reverse
  refine ⟨left', right'.reverse, ?_⟩
  have hreverse : (left' ++ (t ++ right)).reverse =
      right.reverse ++ (t.reverse ++ left'.reverse) := by simp
  rw [trim, List.append_assoc left, hleft, hreverse, hright]
  simp

/-- Only white space is trimmed away. -/
theorem exists_eq_append_trim (t : List Char) :
    ∃ left right, t = left ++ trim t ++ right ∧ ∀ c ∈ left ++ right, isBlank c = true := by
  have hfront := t.takeWhile_append_dropWhile (p := isBlank)
  have hback := (t.dropWhile isBlank).reverse.takeWhile_append_dropWhile (p := isBlank)
  refine ⟨t.takeWhile isBlank, ((t.dropWhile isBlank).reverse.takeWhile isBlank).reverse, ?_, ?_⟩
  · rw [trim, List.append_assoc, ← List.reverse_append, hback, List.reverse_reverse, hfront]
  · intro c hc
    rcases List.mem_append.1 hc with hc | hc
    · exact List.mem_takeWhile_imp hc
    · exact List.mem_takeWhile_imp (List.mem_reverse.1 hc)

/-! ## The values of a condition -/

/-- The values of an operand are what is between its commas outside of strings. -/
structure Splits (operand : String) (values : List String) : Prop where
  /-- Each value is a piece without the white space at its ends, and blank pieces are left out. -/
  values_eq : values.map String.toList =
    ((cut .outside operand.toList).map trim).filter fun piece => !piece.isEmpty
  /-- Nothing but the commas at the cuts is lost between the pieces. -/
  join_eq : [','].intercalate (cut .outside operand.toList) = operand.toList
  /-- Nothing but white space is lost at the ends of a piece. -/
  piece_eq : ∀ piece ∈ cut .outside operand.toList, ∃ left right,
    piece = left ++ trim piece ++ right ∧ ∀ c ∈ left ++ right, isBlank c = true
  /-- A string of the operand is a part of a value. -/
  strings : ∀ before string after quote, operand.toList = before ++ string ++ after →
    Quoting.outside.after before = .outside → quote = '"' ∨ quote = '\'' →
    (quoted quote).Matches string → ∃ value ∈ values, string <:+: value.toList

theorem splits_values {operand : String} (h : conditionValues.Accepts operand) :
    Splits operand (values operand) := by
  have hvalues : (values operand).map String.toList =
      ((cut .outside operand.toList).map trim).filter fun piece => !piece.isEmpty := by
    rw [values, pieces_eq_cut h, List.map_map]
    simp [Function.comp_def]
  refine ⟨hvalues, intercalate_cut _ _, fun piece _ => exists_eq_append_trim piece, ?_⟩
  intro before string after quote heq hbefore hquote hstring
  obtain ⟨hne, htrimmed⟩ := trimmed_of_quoted hquote hstring
  obtain ⟨piece, hpiece, hinfix⟩ := infix_of_mem_cut hbefore hquote hstring after
  have htrim := infix_trim hne htrimmed hinfix
  have hmem : trim piece ∈ (values operand).map String.toList := by
    rw [hvalues, heq]
    refine List.mem_filter.2 ⟨List.mem_map_of_mem hpiece, ?_⟩
    rw [Bool.not_eq_true', List.isEmpty_eq_false_iff]
    intro hnil
    rw [hnil, List.infix_nil] at htrim
    exact hne htrim
  obtain ⟨value, hvalue, hvalue_eq⟩ := List.mem_map.1 hmem
  exact ⟨value, hvalue, hvalue_eq ▸ htrim⟩

/-- The values of a condition with one operator, as its rule reads it, are what is between the
commas outside of strings. -/
theorem splits_of_ofName? {s : List Char} {l : Lexeme}
    (h : Lexeme.ofName? "cond_many_single_operator" s = some l) :
    ∃ var op params, l.operands = [var, op, params] ∧
      l.construct? = some (.oneOperator var op (values params)) ∧
      Splits params (values params) := by
  obtain ⟨htag, operands, text, rest, hoperands, hwritten, -, -⟩ :=
    Lexeme.written_of_ofName? .oneOperator rfl (fun _ => rfl) h
  rw [Lexeme.construct?, htag, hoperands]
  cases hwritten with
  | oneOperator hvar hop hvalues => exact ⟨_, _, _, rfl, rfl, splits_values hvalues⟩

/-- Commas and quotes inside strings do not part values, and blank pieces are left out. -/
theorem splits_of_ofName?_strings :
    (Lexeme.ofName? "cond_many_single_operator"
      "x === 'a, \\', \"b', ,\"it's, \" , y) \x7b".toList).map Lexeme.operands =
        some ["x", "===", "'a, \\', \"b', ,\"it's, \" , y"] ∧
      Splits "'a, \\', \"b', ,\"it's, \" , y" ["'a, \\', \"b'", "\"it's, \"", "y"] := by
  have hread : (Lexeme.ofName? "cond_many_single_operator"
      "x === 'a, \\', \"b', ,\"it's, \" , y) \x7b".toList).map Lexeme.operands =
        some ["x", "===", "'a, \\', \"b', ,\"it's, \" , y"] := by
    decide +kernel
  have hvalues : values "'a, \\', \"b', ,\"it's, \" , y" =
      ["'a, \\', \"b'", "\"it's, \"", "y"] := by
    decide +kernel
  obtain ⟨l, hl, hoperands⟩ := Option.map_eq_some_iff.1 hread
  obtain ⟨var, op, params, hparams, -, hsplits⟩ := splits_of_ofName? hl
  obtain ⟨-, -, rfl⟩ : "x" = var ∧ "===" = op ∧ _ = params := by
    simpa [hoperands] using hparams
  exact ⟨hread, hvalues ▸ hsplits⟩

end Condition

end Jawn
