import Jawn.Compile
import Jawn.Proofs.Form

/-!
# The lexemes of a source

What a scan finds, said of its lexemes and not of its loop:

* `firstLongest_eq_some_iff`: the chosen lexeme is longer than those before it and not shorter than
  those behind it;
* `next?_eq_some_iff`: so is what its rule reads, compared with what the others read (`reach`);
* `genuine_of_next?`: a lexeme is what some rule of the grammar reads at the front of the text, and
  it is not empty (`Genuine`);
* `scan_eq`: the lexemes are genuine, and their texts, with what is left, make up the source;
* `exists_lexemes`: the tokens of a source are those of genuine lexemes that make it up;
* `next?_eq_of_first`: if a rule reads the whole text and no rule before it does, the text is a
  lexeme of this rule.
-/

namespace Jawn

namespace Lexeme

/-- A lexeme that a rule of the grammar can have read. -/
structure Genuine (l : Lexeme) : Prop where
  rule_mem : l.rule ∈ Grammar.rules
  reads : l.rule.form.Reads l.segments
  text_ne_nil : l.text ≠ []

theorem ofRule?_eq_some_iff {s : List Char} {rule : Rule} {l : Lexeme} :
    ofRule? s rule = some l ↔
      l.rule = rule ∧ Form.read rule.form s = some l.segments ∧ l.text ≠ [] := by
  rw [ofRule?, Option.bind_eq_some_iff]
  constructor
  · rintro ⟨segments, hread, h⟩
    split at h <;> [cases h; skip]
    rename_i hne
    obtain rfl := Option.some.inj h
    exact ⟨rfl, hread, fun h => hne (List.isEmpty_iff.2 h)⟩
  · rintro ⟨rfl, hread, hne⟩
    exact ⟨l.segments, hread, if_neg fun h => hne (List.isEmpty_iff.1 h)⟩

theorem firstLongest_eq_none_iff {ls : List Lexeme} : firstLongest ls = none ↔ ls = [] := by
  cases ls with
  | nil => simp [firstLongest]
  | cons l ls =>
    rw [firstLongest]
    split <;> [simp; (split <;> simp)]

/-- The chosen lexeme is longer than those before it and not shorter than those behind it. -/
theorem firstLongest_eq_some_iff {ls : List Lexeme} {l : Lexeme} :
    firstLongest ls = some l ↔ ∃ before after, ls = before ++ l :: after ∧
      (∀ m ∈ before, m.text.length < l.text.length) ∧
      ∀ m ∈ after, m.text.length ≤ l.text.length := by
  induction ls generalizing l with
  | nil => simp [firstLongest]
  | cons k ls ih =>
    rw [firstLongest]
    constructor
    · intro h
      split at h
      · rename_i hnone
        obtain rfl := Option.some.inj h
        obtain rfl := firstLongest_eq_none_iff.1 hnone
        exact ⟨[], [], rfl, by simp, by simp⟩
      · rename_i m hm
        obtain ⟨before, after, rfl, hbefore, hafter⟩ := ih.1 hm
        split at h
        · rename_i hlt
          obtain rfl := Option.some.inj h
          refine ⟨k :: before, after, rfl, ?_, hafter⟩
          simpa using ⟨hlt, hbefore⟩
        · rename_i hle
          obtain rfl := Option.some.inj h
          refine ⟨[], before ++ m :: after, rfl, by simp, fun n hn => ?_⟩
          rcases List.mem_append.1 hn with hn | hn
          · have := hbefore n hn
            omega
          rcases List.mem_cons.1 hn with rfl | hn
          · omega
          · have := hafter n hn
            omega
    · rintro ⟨before, after, heq, hbefore, hafter⟩
      cases before with
      | nil =>
        obtain ⟨rfl, rfl⟩ := List.cons.inj heq
        split
        · rfl
        · rename_i m hm
          obtain ⟨before', after', rfl, -⟩ := ih.1 hm
          have := hafter m (by simp)
          rw [if_neg (by omega)]
      | cons m before =>
        obtain ⟨rfl, hls⟩ := List.cons.inj heq
        have hlt := hbefore k (by simp)
        have hl : firstLongest ls = some l :=
          ih.2 ⟨before, after, hls, fun n hn => hbefore n (by simp [hn]), hafter⟩
        rw [hl]
        exact if_pos hlt

/-- A lexeme is what its rule reads at the front of the text. -/
theorem read_of_next? {s : List Char} {l : Lexeme} (h : next? s = some l) :
    l.rule ∈ Grammar.rules ∧ Form.read l.rule.form s = some l.segments ∧ l.text ≠ [] := by
  obtain ⟨before, after, heq, -⟩ := firstLongest_eq_some_iff.1 h
  have hmem : l ∈ Grammar.rules.filterMap (ofRule? s) := by
    rw [heq]
    simp
  obtain ⟨rule, hrule, hl⟩ := List.mem_filterMap.1 hmem
  obtain ⟨rfl, hread, hne⟩ := ofRule?_eq_some_iff.1 hl
  exact ⟨hrule, hread, hne⟩

/-- A lexeme is genuine, and it stands at the front of the text. -/
theorem genuine_of_next? {s : List Char} {l : Lexeme} (h : next? s = some l) :
    l.Genuine ∧ ∃ rest, s = l.text ++ rest := by
  obtain ⟨hrule, hread, hne⟩ := read_of_next? h
  obtain ⟨hreads, hrest⟩ := Form.reads_of_read hread
  exact ⟨⟨hrule, hreads, hne⟩, hrest⟩

/-- The length of what a rule reads at the front of a text. -/
def reach (s : List Char) (rule : Rule) : Nat :=
  match Form.read rule.form s with
  | none => 0
  | some segments => (segments.flatMap Segment.text).length

theorem reach_of_read {s : List Char} {rule : Rule} {segments : List Segment}
    (h : Form.read rule.form s = some segments) :
    reach s rule = (segments.flatMap Segment.text).length := by
  rw [reach, h]

/-- A rule that gives no lexeme reads nothing, or the empty text. -/
theorem reach_of_ofRule?_eq_none {s : List Char} {rule : Rule} (h : ofRule? s rule = none) :
    reach s rule = 0 := by
  cases hread : Form.read rule.form s with
  | none => rw [reach, hread]
  | some segments =>
    rw [reach_of_read hread, List.length_eq_zero_iff]
    by_contra hne
    rw [ofRule?_eq_some_iff (l := ⟨rule, segments⟩) |>.2 ⟨rfl, hread, hne⟩] at h
    cases h

theorem reach_of_ofRule? {s : List Char} {rule : Rule} {l : Lexeme} (h : ofRule? s rule = some l) :
    reach s rule = l.text.length := by
  obtain ⟨rfl, hread, -⟩ := ofRule?_eq_some_iff.1 h
  exact reach_of_read hread

theorem forall_filterMap_iff {s : List Char} {rules : List Rule} {P : Nat → Prop} (hzero : P 0) :
    (∀ m ∈ rules.filterMap (ofRule? s), P m.text.length) ↔ ∀ rule ∈ rules, P (reach s rule) := by
  constructor
  · intro h rule hrule
    cases hl : ofRule? s rule with
    | none =>
      rw [reach_of_ofRule?_eq_none hl]
      exact hzero
    | some l =>
      rw [reach_of_ofRule? hl]
      exact h l (List.mem_filterMap.2 ⟨rule, hrule, hl⟩)
  · intro h m hm
    obtain ⟨rule, hrule, hl⟩ := List.mem_filterMap.1 hm
    rw [← reach_of_ofRule? hl]
    exact h rule hrule

/-- The lexeme of a text is what a rule reads that reads more than all rules before it, and no less
than those behind it. -/
theorem next?_eq_some_iff {s : List Char} {l : Lexeme} :
    next? s = some l ↔ Form.read l.rule.form s = some l.segments ∧ l.text ≠ [] ∧
      ∃ before after, Grammar.rules = before ++ l.rule :: after ∧
        (∀ rule ∈ before, reach s rule < l.text.length) ∧
        ∀ rule ∈ after, reach s rule ≤ l.text.length := by
  rw [next?, firstLongest_eq_some_iff]
  constructor
  · rintro ⟨before, after, heq, hbefore, hafter⟩
    obtain ⟨front, back, hrules, rfl, hback⟩ := List.filterMap_eq_append_iff.1 heq
    obtain ⟨skipped, rule, rest, rfl, hskipped, hl, rfl⟩ := List.filterMap_eq_cons_iff.1 hback
    obtain ⟨rfl, hread, hne⟩ := ofRule?_eq_some_iff.1 hl
    have hpos := List.length_pos_iff.2 hne
    refine ⟨hread, hne, front ++ skipped, rest, by simp [hrules], ?_, ?_⟩
    · rw [List.forall_mem_append]
      refine ⟨(forall_filterMap_iff (P := (· < l.text.length)) hpos).1 hbefore, ?_⟩
      intro rule hrule
      rw [reach_of_ofRule?_eq_none (hskipped rule hrule)]
      exact hpos
    · exact (forall_filterMap_iff (P := (· ≤ l.text.length)) (Nat.zero_le _)).1 hafter
  · rintro ⟨hread, hne, before, after, hrules, hbefore, hafter⟩
    have hl : ofRule? s l.rule = some l := ofRule?_eq_some_iff.2 ⟨rfl, hread, hne⟩
    refine ⟨before.filterMap (ofRule? s), after.filterMap (ofRule? s), ?_, ?_, ?_⟩
    · rw [hrules, List.filterMap_append, List.filterMap_cons_some hl]
    · exact (forall_filterMap_iff (P := (· < l.text.length)) (List.length_pos_iff.2 hne)).2 hbefore
    · exact (forall_filterMap_iff (P := (· ≤ l.text.length)) (Nat.zero_le _)).2 hafter

theorem reach_le (s : List Char) (rule : Rule) : reach s rule ≤ s.length := by
  cases hread : Form.read rule.form s with
  | none => simp [reach, hread]
  | some segments =>
    obtain ⟨-, rest, hs⟩ := Form.reads_of_read hread
    rw [reach_of_read hread, hs, List.length_append]
    omega

/-- A rule that reads the whole text matches it. -/
theorem matches_of_reach_eq {s : List Char} {rule : Rule} (hne : s ≠ [])
    (h : reach s rule = s.length) : rule.form.pattern.Matches s := by
  cases hread : Form.read rule.form s with
  | none =>
    rw [reach, hread] at h
    exact absurd (List.length_eq_zero_iff.1 h.symm) hne
  | some segments =>
    obtain ⟨hreads, rest, hs⟩ := Form.reads_of_read hread
    rw [reach_of_read hread] at h
    have hlength := congrArg List.length hs
    rw [List.length_append, h] at hlength
    obtain rfl : rest = [] := List.length_eq_zero_iff.1 (by omega)
    rw [hs, List.append_nil]
    exact Form.matches_of_reads hreads

/-- A rule does not reach beyond the front of a text if it matches nothing that does. -/
theorem reach_append_le {t r : List Char} {rule : Rule}
    (h : ∀ u more, u ≠ [] → r = u ++ more → ¬ rule.form.pattern.Matches (t ++ u)) :
    reach (t ++ r) rule ≤ t.length := by
  cases hread : Form.read rule.form (t ++ r) with
  | none => simp [reach, hread]
  | some segments =>
    obtain ⟨hreads, more, hmore⟩ := Form.reads_of_read hread
    have hmatches := Form.matches_of_reads hreads
    rw [reach_of_read hread]
    by_contra hlong
    obtain ⟨u, hu⟩ : t <+: segments.flatMap Segment.text :=
      List.prefix_of_prefix_length_le ⟨r, rfl⟩ ⟨more, hmore.symm⟩ (by omega)
    rw [← hu] at hmatches hmore hlong
    rw [List.append_assoc] at hmore
    refine h u more ?_ (List.append_cancel_left hmore) hmatches
    rintro rfl
    simp at hlong

/-- If a rule reads the whole text and no rule before it does, the text is a lexeme of this rule. No
rule can read more than the whole text, so only a tie has to be excluded. -/
theorem next?_eq_of_first {s : List Char} {before after : List Rule} {l : Lexeme}
    (hrules : Grammar.rules = before ++ l.rule :: after)
    (hread : Form.read l.rule.form s = some l.segments) (htext : l.text = s) (hne : s ≠ [])
    (hfirst : ∀ rule ∈ before, ¬ rule.form.pattern.Matches s) : next? s = some l := by
  subst htext
  refine next?_eq_some_iff.2 ⟨hread, hne, before, after, hrules, fun rule hrule => ?_,
    fun rule _ => reach_le _ rule⟩
  exact Nat.lt_of_le_of_ne (reach_le _ rule) fun h => hfirst rule hrule (matches_of_reach_eq hne h)

/-! ## Scanning -/

theorem scan_nil : scan [] = ([], []) := by
  rw [scan]

/-- One step of a scan: the first lexeme, and the scan of what is behind it. -/
theorem scan_of_next? {s rest : List Char} {l : Lexeme} (h : next? s = some l)
    (hs : s = l.text ++ rest) :
    scan s = (l :: (scan rest).1, (scan rest).2) := by
  obtain ⟨⟨-, -, hne⟩, -⟩ := genuine_of_next? h
  obtain ⟨c, t, ht⟩ := List.exists_cons_of_ne_nil hne
  rw [ht] at hs
  subst hs
  rw [List.cons_append, scan, ← List.cons_append, h]
  simp only [ht, List.length_cons, Nat.add_sub_cancel, List.drop_left]

/-- The lexemes of a scan are genuine, and with what is left they make up the text. -/
theorem scan_eq (s : List Char) :
    s = (scan s).1.flatMap Lexeme.text ++ (scan s).2 ∧ ∀ l ∈ (scan s).1, l.Genuine := by
  -- The recursion of `scan` goes on behind the lexeme it found, so the induction is on the length.
  generalize hn : s.length = n
  induction n using Nat.strongRecOn generalizing s with
  | ind n ih =>
    cases s with
    | nil => simp [scan_nil]
    | cons c rest =>
      cases h : next? (c :: rest) with
      | none => simp [scan, h]
      | some l =>
        obtain ⟨hl, left, hs⟩ := genuine_of_next? h
        have hlen : left.length < n := by
          have := List.length_pos_iff.2 hl.text_ne_nil
          rw [← hn, hs, List.length_append]
          omega
        obtain ⟨heq, hgenuine⟩ := ih _ hlen left rfl
        rw [scan_of_next? h hs]
        constructor
        · rw [List.flatMap_cons, List.append_assoc, ← heq]
          exact hs
        · simpa using ⟨hl, hgenuine⟩

end Lexeme

/-- The tokens of a source are those of genuine lexemes that make it up. -/
theorem exists_lexemes {source : String} {tokens : Stream} (h : tokenize source = .ok tokens) :
    ∃ lexemes : List Lexeme, source.toList = lexemes.flatMap Lexeme.text ∧
      (∀ l ∈ lexemes, l.Genuine) ∧ tokens = Lexeme.stream 0 lexemes := by
  obtain ⟨heq, hgenuine⟩ := Lexeme.scan_eq source.toList
  rw [tokenize] at h
  split at h
  · rename_i lexemes hscan
    rw [hscan] at heq hgenuine
    obtain rfl := Except.ok.inj h
    exact ⟨lexemes, by simpa using heq, hgenuine, rfl⟩
  · cases h

/-- A source that is one lexeme as a whole has the tokens of this lexeme. -/
theorem tokenize_of_next? {source : String} {l : Lexeme} (h : Lexeme.next? source.toList = some l)
    (htext : l.text = source.toList) : tokenize source = .ok (Lexeme.stream 0 [l]) := by
  have hs : source.toList = l.text ++ [] := by rw [htext, List.append_nil]
  rw [tokenize, Lexeme.scan_of_next? h hs, Lexeme.scan_nil]

end Jawn
