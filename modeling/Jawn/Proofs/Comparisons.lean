import Jawn.Proofs.Flatten
import Jawn.Proofs.Lines
import Mathlib.Data.List.TakeWhile

/-!
# What conditions compare with

A value of a condition may be read that consists of white space only. When the condition is built,
values lose the white space at their ends, and blank values of one operator are dropped. So there
are conditions that compare with nothing:

* `trim_eq_nil_iff`: only blank texts are trimmed to nothing;
* `Condition.values_eq_nil_iff`: when no value of one operator is left;
* `Construct.render_of_comparisons`: a condition is rendered as its comparisons;
* `compares_of_parse`: when the conditions of a source compare with something.
-/

namespace Jawn

open Lexical Pattern

/-! ## Blank texts -/

/-- The text has no other characters than white space. -/
def AllBlank (text : String) : Prop :=
  ∀ c ∈ text.toList, isBlank c = true

/-- Only blank texts are trimmed to nothing. -/
theorem trim_eq_nil_iff {t : List Char} : trim t = [] ↔ ∀ c ∈ t, isBlank c = true := by
  rw [trim, List.reverse_eq_nil_iff, List.dropWhile_eq_nil_iff]
  simp only [List.mem_reverse]
  constructor
  · intro h c hc
    rw [← t.takeWhile_append_dropWhile (p := isBlank), List.mem_append] at hc
    rcases hc with hc | hc
    · exact List.mem_takeWhile_imp hc
    · exact h c hc
  · exact fun h c hc => h c ((List.dropWhile_sublist _).mem hc)

/-- Of a text that is not blank, a character that is not blank is left. -/
theorem allBlank_trim {t : List Char} :
    AllBlank (String.ofList (trim t)) ↔ ∀ c ∈ t, isBlank c = true := by
  rw [AllBlank, String.toList_ofList, ← trim_eq_nil_iff (t := t)]
  constructor
  · intro h
    rw [trim] at h ⊢
    rw [List.reverse_eq_nil_iff]
    have hstops := stops_dropWhile isBlank (t.dropWhile isBlank).reverse
    cases hleft : (t.dropWhile isBlank).reverse.dropWhile isBlank with
    | nil => rfl
    | cons c left =>
      rw [hleft, stops_cons] at hstops
      have hc : isBlank c = true := h c (by simp [hleft])
      rw [hstops] at hc
      cases hc
  · intro h c hc
    rw [h] at hc
    cases hc

namespace Condition

theorem allBlank_value {operand : String} : AllBlank (value operand) ↔ AllBlank operand :=
  allBlank_trim

theorem not_allBlank_of_mem_values {operand v : String} (h : v ∈ values operand) :
    ¬ AllBlank v := by
  obtain ⟨t, ht, rfl⟩ := List.mem_map.1 h
  obtain ⟨hmem, hne⟩ := List.mem_filter.1 ht
  obtain ⟨piece, -, rfl⟩ := List.mem_map.1 hmem
  rw [allBlank_trim, ← trim_eq_nil_iff]
  intro hnil
  simp [hnil] at hne

theorem mem_of_matches_quoted {quote : Char} {t : List Char} (h : (quoted quote).Matches t) :
    quote ∈ t := by
  obtain ⟨left, rest, hleft, -, rfl⟩ := matches_seq.1 h
  obtain rfl := matches_text.1 hleft
  simp

/-- A value of a condition has commas only between quotes, so one of white space and commas is
blank. -/
theorem blank_of_matches {v : List Char} (h : conditionValue.Matches v)
    (hblank : ∀ c ∈ v, isBlank c = true ∨ c = ',') : ∀ c ∈ v, isBlank c = true := by
  -- One round of a value is a string, which has its quotes, or a character that is not a comma.
  have hitem (a : List Char) (ha : conditionItem.Matches a)
      (hblank : ∀ c ∈ a, isBlank c = true ∨ c = ',') : ∀ c ∈ a, isBlank c = true := by
    rcases matches_alt.1 ha with ha | ha
    · exact absurd (hblank '"' (mem_of_matches_quoted ha)) (by decide)
    rcases matches_alt.1 ha with ha | ha
    · exact absurd (hblank '\'' (mem_of_matches_quoted ha)) (by decide)
    · obtain ⟨c, hc, rfl⟩ := matches_one.1 ha
      have hne : c ≠ ',' := by
        rintro rfl
        cases hc
      simpa [hne] using hblank
  obtain ⟨item, items, hfirst, hitems, rfl⟩ := matches_seq.1 h
  rw [List.forall_mem_append] at hblank ⊢
  refine ⟨hitem item hfirst hblank.1, hitems.star_induction
    (motive := fun u => (∀ c ∈ u, isBlank c = true ∨ c = ',') → ∀ c ∈ u, isBlank c = true)
    (by simp) (fun a b ha _ ih hblank => ?_) hblank.2⟩
  rw [List.forall_mem_append] at hblank ⊢
  exact ⟨hitem a ha hblank.1, ih hblank.2⟩

theorem exists_of_matches_conditionValues {t : List Char} (h : conditionValues.Matches t) :
    ∃ v vs, t = [','].intercalate (v :: vs) ∧ ∀ w ∈ v :: vs, conditionValue.Matches w := by
  obtain ⟨v, further, hv, hfurther, rfl⟩ := matches_seq.1 h
  -- The value in front is left open, as each round is behind another one.
  have hjoin : ∃ vs, (∀ w ∈ vs, conditionValue.Matches w) ∧
      ∀ v, v ++ further = [','].intercalate (v :: vs) := by
    refine hfurther.star_induction (motive := fun u => ∃ vs, (∀ w ∈ vs, conditionValue.Matches w) ∧
      ∀ v, v ++ u = [','].intercalate (v :: vs)) ⟨[], by simp⟩ ?_
    rintro a b ha - ⟨vs, hvs, hb⟩
    obtain ⟨comma, w, hcomma, hw, rfl⟩ := matches_seq.1 ha
    obtain rfl := matches_text.1 hcomma
    refine ⟨w :: vs, List.forall_mem_cons.2 ⟨hw, hvs⟩, fun v => ?_⟩
    rw [List.intercalate_cons_cons, ← hb]
    simp
  obtain ⟨vs, hvs, hjoin⟩ := hjoin
  exact ⟨v, vs, hjoin v, List.forall_mem_cons.2 ⟨hv, hvs⟩⟩

theorem forall_mem_intercalate {P : Char → Prop} (hcomma : P ',') (v : List Char)
    (vs : List (List Char)) :
    (∀ c ∈ [','].intercalate (v :: vs), P c) ↔ ∀ w ∈ v :: vs, ∀ c ∈ w, P c := by
  induction vs generalizing v with
  | nil => simp
  | cons w vs ih =>
    rw [List.intercalate_cons_cons, List.forall_mem_append, List.forall_mem_append, ih,
      List.forall_mem_cons]
    simp [hcomma]

/-- No value is left if there is nothing but white space between the commas. -/
theorem values_eq_nil_iff {operand : String} (h : conditionValues.Accepts operand) :
    values operand = [] ↔ ∀ c ∈ operand.toList, isBlank c = true ∨ c = ',' := by
  obtain ⟨v, vs, htext, hvs⟩ := exists_of_matches_conditionValues h
  have hvalues : values operand = [] ↔ ∀ w ∈ v :: vs, ∀ c ∈ w, isBlank c = true := by
    rw [values, htext, pieces_intercalate hvs]
    simp [List.filter_eq_nil_iff, trim_eq_nil_iff]
  rw [hvalues, htext, forall_mem_intercalate (.inr rfl)]
  constructor
  · exact fun hblank w hw c hc => .inl (hblank w hw c hc)
  · exact fun hblank w hw => blank_of_matches (hvs w hw) (hblank w hw)

end Condition

/-! ## Comparisons -/

namespace Construct

/-- The variable of a condition, and what it is compared with. -/
def comparisons? : Construct → Option (String × List Comparison)
  | oneOperator var op values => some (var, values.map (⟨op, ·⟩))
  | twoOperators var first second => some (var, [first, second])
  | _ => none

/-- A condition compares with something, and nothing that it compares with is blank. -/
def Compares (c : Construct) : Prop :=
  ∀ var comparisons, c.comparisons? = some (var, comparisons) →
    comparisons ≠ [] ∧ ∀ x ∈ comparisons, ¬ AllBlank x.value

variable {c : Construct} {var : String} {comparisons : List Comparison}

theorem compares_iff_of_comparisons (h : c.comparisons? = some (var, comparisons)) :
    c.Compares ↔ comparisons ≠ [] ∧ ∀ x ∈ comparisons, ¬ AllBlank x.value := by
  constructor
  · exact fun hc => hc var comparisons h
  · rintro hc var' comparisons' h'
    rw [h, Option.some.injEq, Prod.mk.injEq] at h'
    obtain ⟨-, rfl⟩ := h'
    exact hc

/-- A condition is rendered as its comparisons. -/
theorem render_of_comparisons (h : c.comparisons? = some (var, comparisons)) :
    c.render =
      " || ".intercalate (comparisons.map fun x => var ++ " " ++ x.display) ++ ") \x7b" := by
  cases c with
  | oneOperator var op values =>
    obtain ⟨rfl, rfl⟩ := Prod.mk.inj (Option.some.inj h)
    show " || ".intercalate (values.map fun v => var ++ " " ++ op ++ " " ++ v) ++ ") \x7b" = _
    simp only [List.map_map, Function.comp_def, Comparison.display, ← String.append_assoc]
  | twoOperators var first second =>
    obtain ⟨rfl, rfl⟩ := Prod.mk.inj (Option.some.inj h)
    show var ++ " " ++ first.display ++ " || " ++ var ++ " " ++ second.display ++ ") \x7b" = _
    simp [String.append_assoc]
  | _ => cases h

/-- Only a condition without comparisons is rendered as the end of one. -/
theorem render_eq_iff (h : c.comparisons? = some (var, comparisons)) :
    c.render = ") \x7b" ↔ comparisons = [] := by
  rw [render_of_comparisons h]
  constructor
  · intro hrender
    have hjoin := congrArg String.toList hrender
    rw [String.toList_append, List.append_left_eq_self, String.toList_intercalate] at hjoin
    cases comparisons with
    | nil => rfl
    | cons x comparisons => cases comparisons <;> simp [List.intercalate_cons_cons] at hjoin
  · rintro rfl
    rfl

end Construct

/-- The operands of a condition have more than white space in the places of values, and more than
white space and commas where one operator has all its values. -/
def Tag.HasValues : Tag → List String → Prop
  | .oneOperator, [_, _, values] => ∃ c ∈ values.toList, isBlank c = false ∧ c ≠ ','
  | .twoOperators, [_, _, value, _, value'] => ¬ AllBlank value ∧ ¬ AllBlank value'
  | _, _ => True

/-- The values of one operator are never blank, but there may be none. -/
theorem Slots.not_allBlank_of_complete {tag : Tag} {operands values : List String}
    {var op : String} (h : tag.slots.complete operands = some (.oneOperator var op values)) :
    ∀ v ∈ values, ¬ AllBlank v := by
  obtain ⟨htag, -⟩ := fields_of_complete h
  obtain rfl : Tag.oneOperator = tag := htag
  simp only [Tag.slots, complete_text, complete_done] at h
  obtain ⟨_, _, -, _, _, -, operand, _, -, -, hvalues⟩ := h
  obtain ⟨-, -, rfl⟩ := Construct.oneOperator.inj hvalues
  exact fun v hv => Condition.not_allBlank_of_mem_values hv

/-- A condition compares with something if its operands have values. -/
theorem Written.compares_iff {tag : Tag} {operands : List String} {text : String} {c : Construct}
    (h : Written tag operands text) (hc : tag.slots.complete operands = some c) :
    c.Compares ↔ tag.HasValues operands := by
  obtain ⟨htag, -⟩ := Slots.fields_of_complete hc
  cases c with
  | oneOperator var op values =>
    have hblank : ∀ x ∈ values.map (Comparison.mk op), ¬ AllBlank x.value := by
      rw [List.forall_mem_map]
      exact Slots.not_allBlank_of_complete hc
    rw [Construct.compares_iff_of_comparisons rfl, and_iff_left hblank, ne_eq,
      List.map_eq_nil_iff]
    obtain rfl : Tag.oneOperator = tag := htag
    cases h with
    | @oneOperator var op operand hvar hop hoperand =>
      obtain ⟨rfl, rfl, rfl⟩ := Construct.oneOperator.inj (Option.some.inj hc)
      rw [Condition.values_eq_nil_iff hoperand]
      simp [Tag.HasValues]
  | twoOperators var first second =>
    obtain rfl : Tag.twoOperators = tag := htag
    cases h with
    | @twoOperators gap var op operand op' operand' hgap hvar hop hoperand hop' hoperand' =>
      obtain ⟨rfl, rfl, rfl⟩ := Construct.twoOperators.inj (Option.some.inj hc)
      rw [Construct.compares_iff_of_comparisons rfl]
      simp [Tag.HasValues, Condition.allBlank_value]
  | _ =>
    subst htag
    exact iff_of_true (by rintro _ _ ⟨⟩) trivial

/-! ## Conditions of a source -/

/-- How the construct of a lexeme compares, if it is a condition. -/
structure Lexeme.ComparesAs (l : Lexeme) (c : Construct) : Prop where
  construct_eq : l.construct? = some c
  compares_iff : c.Compares ↔ l.tag.HasValues l.operands
  values_not_blank : ∀ var op values, c = .oneOperator var op values → ∀ v ∈ values, ¬ AllBlank v
  render_eq : ∀ var comparisons, c.comparisons? = some (var, comparisons) → c.render =
    " || ".intercalate (comparisons.map fun x => var ++ " " ++ x.display) ++ ") \x7b"
  /-- Without values, a condition with one operator is rendered without a comparison. -/
  render_iff : c.tag = .oneOperator → (c.render = ") \x7b" ↔ ¬ l.tag.HasValues l.operands)

theorem Lexeme.Genuine.comparesAs {l : Lexeme} {c : Construct} (h : l.Genuine)
    (hc : l.construct? = some c) : l.ComparesAs c := by
  have hcompares := h.written.compares_iff hc
  refine ⟨hc, hcompares, ?_, fun _ _ => Construct.render_of_comparisons, fun htag => ?_⟩
  · rintro var op values rfl
    exact Slots.not_allBlank_of_complete hc
  · cases c with
    | oneOperator var op values =>
      have hblank := Slots.not_allBlank_of_complete hc
      rw [Construct.render_eq_iff rfl, ← hcompares, Construct.compares_iff_of_comparisons rfl,
        List.forall_mem_map, and_iff_left hblank, not_not]
    | _ => cases htag

theorem Lexeme.forall₂_comparesAs {ls : List Lexeme} {program : Program}
    (hgenuine : ∀ l ∈ ls, l.Genuine) (h : program.map some = ls.map construct?) :
    List.Forall₂ ComparesAs ls program := by
  have hmakes : List.Forall₂ (fun l c => l.construct? = some c) ls program := by
    rw [eq_comm, ← List.forall₂_eq_eq_eq, List.forall₂_map_left_iff,
      List.forall₂_map_right_iff] at h
    exact h
  have hboth := (List.forall₂_and_left ..).2 ⟨hgenuine, hmakes⟩
  exact hboth.imp fun l c hl => hl.1.comparesAs hl.2

theorem Lexeme.forall_compares_iff {ls : List Lexeme} {program : Program}
    (h : List.Forall₂ ComparesAs ls program) :
    (∀ c ∈ program, c.Compares) ↔ ∀ l ∈ ls, l.tag.HasValues l.operands := by
  induction h with
  | nil => simp
  | cons hl _ ih => rw [List.forall_mem_cons, List.forall_mem_cons, hl.compares_iff, ih]

/-- The conditions of a source, read strictly or not, compare with something if and only if there is
more than white space in the places of their values. -/
theorem compares_of_parse {strict : Bool} {source : String} {program : List (Located Construct)}
    (h : parse strict source = .ok program) :
    ∃ ls, Lexeme.scan source.toList = (ls, []) ∧
      List.Forall₂ Lexeme.ComparesAs ls (programOf program) ∧
      ((∀ c ∈ programOf program, c.Compares) ↔ ∀ l ∈ ls, l.tag.HasValues l.operands) := by
  obtain ⟨ls, hscan, hvalues⟩ := scan_of_parse (parse_lenient_of_parse h)
  have hcompares := Lexeme.forall₂_comparesAs (genuine_of_scan hscan) hvalues
  exact ⟨ls, hscan, hcompares, Lexeme.forall_compares_iff hcompares⟩

/-- A blank value of one operator does no harm if there is another one. -/
theorem compares_of_parse_blank :
    parse false "x ===  , 1) \x7b" = .ok [⟨.oneOperator "x" "===" ["1"], ⟨0, 13⟩⟩] ∧
      ∃ ls, Lexeme.scan "x ===  , 1) \x7b".toList = (ls, []) ∧
        ∀ l ∈ ls, l.tag.HasValues l.operands := by
  have hparse : parse false "x ===  , 1) \x7b" =
      .ok [⟨.oneOperator "x" "===" ["1"], ⟨0, 13⟩⟩] := by
    decide +kernel
  obtain ⟨ls, hscan, -, hcompares⟩ := compares_of_parse hparse
  refine ⟨hparse, ls, hscan, hcompares.1 (List.forall_mem_singleton.2 ?_)⟩
  rw [Construct.compares_iff_of_comparisons rfl]
  refine ⟨by simp, List.forall_mem_singleton.2 fun hblank => ?_⟩
  exact absurd (hblank '1' (by simp)) (by decide)

/-- A condition that compares with nothing is read even in a strict run. -/
theorem not_forall_compares : ¬ ∀ (strict : Bool) (source : String)
    (program : List (Located Construct)), parse strict source = .ok program →
      ∀ c ∈ programOf program, c.Compares := by
  intro h
  have hparse : parse true "if (x ===  ) \x7b\x7d" = .ok [⟨.ifHead, ⟨0, 4⟩⟩,
      ⟨.oneOperator "x" "===" [], ⟨4, 14⟩⟩, ⟨.closeCurly, ⟨14, 15⟩⟩] := by
    decide +kernel
  have hcompares := h _ _ _ hparse (.oneOperator "x" "===" []) (by simp [programOf])
  exact (hcompares "x" [] rfl).1 rfl

end Jawn
