import Jawn.Proofs.Lexeme

/-!
# Texts that are cut off

A match does not look at what stands behind it. So of two texts, one of which goes on where the
other is cut off, the longer one has the matches of the shorter one, in the same order, and between
them others that do not fit into the shorter one:

* `Pattern.ends_star`: a repetition is one more round with a repetition behind it, or nothing;
* `Pattern.truncates_ends`: the matches of a text that is cut off are those that fit into it;
* `Form.read_append`: if what a form reads fits into the front of a text, it reads the same of the
  front alone;
* `Lexeme.next?_append`, `Lexeme.next?_of_append`: so does the whole grammar.
-/

namespace Jawn

namespace Pattern

variable {p q : Pattern} {s t r e : List Char}

/-- Whether the empty text is in the language. -/
def nullable : Pattern → Bool
  | .text t => t.isEmpty
  | .one _ => false
  | .many _ => true
  | .seq p q => p.nullable && q.nullable
  | .alt p q => p.nullable || q.nullable
  | .star _ => true

/-- No round of a repetition is empty. -/
def progressive : Pattern → Bool
  | .text _ | .one _ | .many _ => true
  | .seq p q | .alt p q => p.progressive && q.progressive
  | .star p => !p.nullable && p.progressive

theorem nullable_of_matches_nil (h : p.Matches []) : p.nullable = true := by
  generalize hs : ([] : List Char) = s at h
  induction h with
  | text t => simp [nullable, ← hs]
  | one _ => cases hs
  | many _ => rfl
  | seq _ _ ihp ihq =>
    obtain ⟨ht, hu⟩ := List.append_eq_nil_iff.1 hs.symm
    simp [nullable, ihp ht.symm, ihq hu.symm]
  | altLeft _ ih => simp [nullable, ih hs]
  | altRight _ ih => simp [nullable, ih hs]
  | starNil => rfl
  | starCons => rfl

theorem length_le_of_mem_ends (h : e ∈ p.ends s) : e.length ≤ s.length := by
  obtain ⟨t, rfl, -⟩ := mem_ends.1 h
  simp

theorem length_lt_of_mem_ends (hp : p.nullable = false) (h : e ∈ p.ends s) :
    e.length < s.length := by
  obtain ⟨t, rfl, ht⟩ := mem_ends.1 h
  cases t with
  | nil =>
    rw [nullable_of_matches_nil ht] at hp
    cases hp
  | cons c t =>
    rw [List.length_append, List.length_cons]
    omega

/-- One more round than characters finds nothing more. -/
theorem rounds_succ (hp : p.nullable = false) {n : Nat} (hn : s.length ≤ n) :
    rounds p.ends (n + 1) s = rounds p.ends n s := by
  induction n generalizing s with
  | zero =>
    have hnone : p.ends s = [] := by
      refine List.eq_nil_iff_forall_not_mem.2 fun e he => ?_
      have := length_lt_of_mem_ends hp he
      omega
    simp only [rounds, hnone, List.flatMap_nil, List.nil_append]
  | succ n ih =>
    rw [rounds, rounds, List.flatMap_congr fun e he => ih ?_]
    have := length_lt_of_mem_ends hp he
    omega

theorem rounds_eq_ends (hp : p.nullable = false) {n : Nat} (hn : s.length ≤ n) :
    rounds p.ends n s = (Pattern.star p).ends s := by
  induction hn with
  | refl => rfl
  | step hn ih => rw [rounds_succ hp hn, ih]

/-- A repetition is one more round with a repetition behind it, or nothing. -/
theorem ends_star (hp : p.nullable = false) :
    (Pattern.star p).ends s = (p.ends s).flatMap (Pattern.star p).ends ++ [s] := by
  rw [← rounds_eq_ends hp (Nat.le_succ s.length), rounds]
  congr 1
  exact List.flatMap_congr fun e he => rounds_eq_ends hp (length_le_of_mem_ends he)

/-! ## Matches that fit -/

/-- A rest is at least as long as `r`, so what was read before it does not reach into `r`. -/
def reaches (r e : List Char) : Bool :=
  r.length ≤ e.length

/-- What is left of a text that is cut off is what is left of the whole, as far as it reaches over
the part that was cut off. -/
def Truncates (ends : List Char → List (List Char)) : Prop :=
  ∀ t r, (ends (t ++ r)).filter (reaches r) = (ends t).map (· ++ r)

theorem reaches_append (t r : List Char) : reaches r (t ++ r) = true := by
  simp [reaches]

/-- Behind a step that goes too far nothing fits any more. -/
theorem filter_flatMap_reaches {next : List Char → List (List Char)}
    (hnext : ∀ s, ∀ e ∈ next s, e.length ≤ s.length) (l : List (List Char)) (r : List Char) :
    (l.flatMap next).filter (reaches r) =
      (l.filter (reaches r)).flatMap fun e => (next e).filter (reaches r) := by
  induction l with
  | nil => rfl
  | cons s l ih =>
    rw [List.flatMap_cons, List.filter_append, ih, List.filter_cons]
    split
    · rw [List.flatMap_cons]
    · rename_i hs
      have hnone : (next s).filter (reaches r) = [] := by
        refine List.filter_eq_nil_iff.2 fun e he => ?_
        have := hnext s e he
        simp only [reaches, decide_eq_true_eq] at hs ⊢
        omega
      rw [hnone, List.nil_append]

theorem truncates_text (u : List Char) : Truncates (Pattern.text u).ends := by
  intro t r
  simp only [ends, List.isPrefixOf_iff_prefix]
  by_cases hfit : u.length ≤ t.length
  · have hiff : u <+: t ++ r ↔ u <+: t :=
      ⟨fun h => List.prefix_of_prefix_length_le h (List.prefix_append t r) hfit,
        fun h => h.trans (List.prefix_append t r)⟩
    simp only [hiff]
    split
    · rw [List.drop_append_of_le_length hfit]
      simp [reaches]
    · rfl
  · have hnot : ¬ u <+: t := fun h => hfit h.length_le
    rw [if_neg hnot]
    split
    · rename_i h
      have hshort : ¬ r.length ≤ t.length + r.length - u.length := by
        have := h.length_le
        rw [List.length_append] at this
        omega
      simpa [reaches] using hshort
    · rfl

theorem truncates_one (ok : Char → Bool) : Truncates (Pattern.one ok).ends := by
  intro t r
  cases t with
  | nil =>
    cases r with
    | nil => rfl
    | cons c r =>
      simp only [List.nil_append, ends]
      split <;> simp [reaches]
  | cons c t =>
    simp only [List.cons_append, ends]
    split <;> simp [reaches]

/-- The longer runs come first. -/
theorem exists_runEnds (ok : Char → Bool) (s : List Char) (shorter : List (List Char)) :
    ∃ longer, runEnds ok s shorter = longer ++ s :: shorter ∧
      ∀ e ∈ longer, e.length < s.length := by
  induction s generalizing shorter with
  | nil => exact ⟨[], rfl, by simp⟩
  | cons c s ih =>
    rw [runEnds]
    split
    · obtain ⟨longer, heq, hlonger⟩ := ih ((c :: s) :: shorter)
      refine ⟨longer ++ [s], by simp [heq], fun e he => ?_⟩
      rcases List.mem_append.1 he with he | he
      · exact Nat.lt_succ_of_lt (hlonger e he)
      · simp [List.mem_singleton.1 he]
    · exact ⟨[], rfl, by simp⟩

theorem filter_runEnds_append (ok : Char → Bool) (t r : List Char) (shorter : List (List Char)) :
    (runEnds ok (t ++ r) (shorter.map (· ++ r))).filter (reaches r) =
      (runEnds ok t shorter).map (· ++ r) := by
  have hshorter : ∀ l : List (List Char), (l.map (· ++ r)).filter (reaches r) = l.map (· ++ r) := by
    intro l
    refine List.filter_eq_self.2 fun e he => ?_
    obtain ⟨e, -, rfl⟩ := List.mem_map.1 he
    exact reaches_append e r
  induction t generalizing shorter with
  | nil =>
    obtain ⟨longer, heq, hlonger⟩ := exists_runEnds ok r (shorter.map (· ++ r))
    have hnone : longer.filter (reaches r) = [] := by
      refine List.filter_eq_nil_iff.2 fun e he => ?_
      simpa [reaches] using hlonger e he
    have hrest := hshorter ([] :: shorter)
    rw [List.map_cons, List.nil_append] at hrest
    rw [List.nil_append, heq, List.filter_append, hnone, List.nil_append, hrest]
    rfl
  | cons c t ih =>
    rw [List.cons_append, runEnds, runEnds]
    split
    · exact ih ((c :: t) :: shorter)
    · exact hshorter ((c :: t) :: shorter)

theorem truncates_many (ok : Char → Bool) : Truncates (Pattern.many ok).ends :=
  fun t r => filter_runEnds_append ok t r []

theorem truncates_seq (hp : Truncates p.ends) (hq : Truncates q.ends) :
    Truncates (Pattern.seq p q).ends := by
  intro t r
  simp only [ends]
  rw [filter_flatMap_reaches fun s e => length_le_of_mem_ends, hp, List.flatMap_map,
    List.map_flatMap]
  exact List.flatMap_congr fun e _ => hq e r

theorem truncates_alt (hp : Truncates p.ends) (hq : Truncates q.ends) :
    Truncates (Pattern.alt p q).ends := by
  intro t r
  simp only [ends]
  rw [List.filter_append, hp, hq, List.map_append]

theorem truncates_star (hnull : p.nullable = false) (hp : Truncates p.ends) :
    Truncates (Pattern.star p).ends := by
  intro t r
  -- A round takes at least one character, so the rest of the text is shorter.
  induction hn : t.length using Nat.strongRecOn generalizing t with
  | ind n ih =>
    rw [ends_star hnull, ends_star hnull, List.filter_append,
      filter_flatMap_reaches fun s e => length_le_of_mem_ends, hp, List.flatMap_map,
      List.map_append, List.map_flatMap]
    congr 1
    · refine List.flatMap_congr fun e he => ih e.length ?_ e rfl
      rw [← hn]
      exact length_lt_of_mem_ends hnull he
    · simp [reaches]

/-- The matches of a text that is cut off are those that fit into it. -/
theorem truncates_ends (hp : p.progressive = true) : Truncates p.ends := by
  induction p with
  | text u => exact truncates_text u
  | one ok => exact truncates_one ok
  | many ok => exact truncates_many ok
  | seq p q ihp ihq =>
    rw [progressive, Bool.and_eq_true] at hp
    exact truncates_seq (ihp hp.1) (ihq hp.2)
  | alt p q ihp ihq =>
    rw [progressive, Bool.and_eq_true] at hp
    exact truncates_alt (ihp hp.1) (ihq hp.2)
  | star p ih =>
    rw [progressive, Bool.and_eq_true, Bool.not_eq_true'] at hp
    exact truncates_star hp.1 (ih hp.2)

/-- A match that fits has, in the text that is cut off, no other matches before it than in the
whole. -/
theorem exists_ends_of_append (hp : p.progressive = true) {before after : List (List Char)}
    (h : p.ends (t ++ r) = before ++ (e ++ r) :: after) :
    ∃ before' after', p.ends t = before' ++ e :: after' ∧ ∀ x ∈ before', x ++ r ∈ before := by
  have hends := (truncates_ends hp t r).symm
  rw [h, List.filter_append, List.filter_cons_of_pos (reaches_append e r),
    List.map_eq_append_iff] at hends
  obtain ⟨before', rest, heq, hbefore, hrest⟩ := hends
  obtain ⟨e', after', rfl, he, -⟩ := List.map_eq_cons_iff.1 hrest
  obtain rfl := List.append_cancel_right he
  refine ⟨before', after', heq, fun x hx => ?_⟩
  have hmem : x ++ r ∈ before.filter (reaches r) := by
    rw [← hbefore]
    exact List.mem_map_of_mem hx
  exact (List.mem_filter.1 hmem).1

end Pattern

namespace Form

/-- No part of the form has a repetition with empty rounds. -/
def Progressive (form : Form) : Prop :=
  ∀ part ∈ form, part.pattern.progressive = true

/-- If what a form reads of a text fits into its front, the form reads the same of the front alone.
If it reads nothing of the text, it reads nothing of the front. -/
theorem read_append {form : Form} (hform : form.Progressive) {t r : List Char}
    (hfit : ∀ segments, Form.read form (t ++ r) = some segments →
      (segments.flatMap Segment.text).length ≤ t.length) :
    Form.read form (t ++ r) = Form.read form t := by
  induction form generalizing t with
  | nil => rfl
  | cons part form ih =>
    rw [Progressive, List.forall_mem_cons] at hform
    have hnone : ∀ e, Form.read form (e ++ r) = none → Form.read form e = none := by
      intro e he
      rw [← he, ih hform.2 (by simp [he])]
    cases hread : Form.read (part :: form) (t ++ r) with
    | none =>
      simp only [read_cons, List.findSome?_eq_none_iff, Option.map_eq_none_iff] at hread
      symm
      simp only [read_cons, List.findSome?_eq_none_iff, Option.map_eq_none_iff]
      intro e he
      obtain ⟨u, rfl, hu⟩ := Pattern.mem_ends.1 he
      exact hnone e (hread _ (Pattern.mem_ends.2 ⟨u, List.append_assoc .., hu⟩))
    | some segments =>
      have hfits := hfit segments hread
      rw [read_cons, List.findSome?_eq_some_iff] at hread
      obtain ⟨before, e, after, heq, he, hbefore⟩ := hread
      obtain ⟨segments', hread', rfl⟩ := Option.map_eq_some_iff.1 he
      -- The part was read as `u`, which ends inside `t`.
      have hmem : e ∈ part.pattern.ends (t ++ r) := by simp [heq]
      obtain ⟨u, hu, -⟩ := Pattern.mem_ends.1 hmem
      have hlength : u.length + (segments'.flatMap Segment.text).length ≤ t.length := by
        rw [hu, take_length_sub, List.flatMap_cons, List.length_append] at hfits
        exact hfits
      obtain ⟨e, rfl, rfl⟩ : ∃ e', t = u ++ e' ∧ e = e' ++ r := by
        obtain ⟨e', rfl⟩ : u <+: t := List.prefix_of_prefix_length_le ⟨e, hu.symm⟩
          (List.prefix_append t r) (by omega)
        rw [List.append_assoc] at hu
        exact ⟨e', rfl, (List.append_cancel_left hu).symm⟩
      obtain ⟨before', after', heq', hbefore'⟩ := Pattern.exists_ends_of_append hform.1 heq
      rw [List.length_append] at hlength
      have hread'' : Form.read form e = some segments' := by
        rw [← hread', ih hform.2]
        intro segments h
        obtain rfl := Option.some.inj (hread'.symm.trans h)
        omega
      symm
      rw [read_cons, List.findSome?_eq_some_iff]
      refine ⟨before', e, after', heq', ?_, fun x hx => ?_⟩
      · rw [hread'', hu, take_length_sub, take_length_sub]
        rfl
      · have hx' := hbefore _ (hbefore' x hx)
        rw [Option.map_eq_none_iff] at hx' ⊢
        exact hnone x hx'

end Form

/-- No class of the grammar has a repetition with empty rounds. -/
theorem Grammar.progressive : ∀ rule ∈ Grammar.rules, rule.form.Progressive := by
  unfold Form.Progressive
  decide

namespace Lexeme

variable {t r : List Char} {l : Lexeme}

/-- A text that goes on has the same lexeme at its front, if no rule reads into what is new. -/
theorem next?_append (hfit : ∀ rule ∈ Grammar.rules, reach (t ++ r) rule ≤ t.length) :
    next? (t ++ r) = next? t := by
  rw [next?, next?]
  congr 1
  refine List.filterMap_congr fun rule hrule => ?_
  have hread : Form.read rule.form (t ++ r) = Form.read rule.form t := by
    refine Form.read_append (Grammar.progressive rule hrule) fun segments hread => ?_
    rw [← reach_of_read hread]
    exact hfit rule hrule
  rw [ofRule?, ofRule?, hread]

/-- No rule reads more than the lexeme at the front of a text. -/
theorem reach_le_of_next? {s : List Char} (h : next? s = some l) {rule : Rule}
    (hrule : rule ∈ Grammar.rules) : reach s rule ≤ l.text.length := by
  obtain ⟨hread, -, before, after, hrules, hbefore, hafter⟩ := next?_eq_some_iff.1 h
  rw [hrules, List.mem_append, List.mem_cons] at hrule
  rcases hrule with hrule | rfl | hrule
  · exact Nat.le_of_lt (hbefore _ hrule)
  · exact Nat.le_of_eq (reach_of_read hread)
  · exact hafter _ hrule

/-- A text that is cut off behind its first lexeme still has it at its front: no rule reads more
than the lexeme, so none reads into what is cut off. -/
theorem next?_of_append (h : next? (t ++ r) = some l) (hfit : l.text.length ≤ t.length) :
    next? t = some l := by
  rw [← h, next?_append]
  exact fun rule hrule => Nat.le_trans (reach_le_of_next? h hrule) hfit

end Lexeme

end Jawn
