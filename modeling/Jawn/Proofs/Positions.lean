import Jawn.Command.Outcome
import Jawn.Proofs.Rows
import Mathlib.Data.List.DropRight
import Mathlib.Data.List.Nodup

/-!
# Rows and columns

A scan carries its position along from lexeme to lexeme. Read off the text before it, a position is
one row more than there are line feeds, and one column more than there are characters behind the
last of them:

* `Position.after_eq_behind`: walking over a text comes to the position behind it;
* `Lexeme.getElem?_placed`: each lexeme is placed behind the text of the lexemes before it;
* `Journal.filter_executing`: of all entries of a command, those about lexemes come from its scan;
* `shown_escape`, `Shown.unique`: a message shows every character, and no two of them alike;
* `positions_of_source`: the positions in the message about a character and in the journal.
-/

namespace Jawn

/-! ## The position behind a text -/

/-- The characters of a text behind its last line feed. -/
def lastLine (text : String) : List Char :=
  text.toList.rtakeWhile (· != '\n')

/-- The position behind a text, counted in the text as a whole. -/
def Position.behind (text : String) : Position where
  offset := text.utf8ByteSize
  row := 1 + lineFeeds text
  column := 1 + (lastLine text).length

theorem Position.column_after (text : List Char) :
    (({} : Position).after text).column = 1 + (text.rtakeWhile (· != '\n')).length := by
  -- The last character decides whether the column goes on, so the induction is from the end.
  induction text using List.reverseRecOn with
  | nil => rfl
  | append_singleton text c ih =>
    rw [after_append, after_cons, after_nil, advance, List.rtakeWhile_concat]
    by_cases hc : c = '\n'
    · simp [hc]
    · simp [hc, ih, Nat.add_assoc]

theorem Position.after_eq_behind (text : List Char) :
    ({} : Position).after text = behind (String.ofList text) := by
  have hoffset := offset_after {} text
  have hrow := row_after {} text
  have hcolumn := column_after text
  rw [behind, utf8ByteSize_ofList, lineFeeds_ofList, lastLine, String.toList_ofList, ← hcolumn,
    ← hrow, ← Nat.zero_add (byteSize text), ← hoffset]

/-! ## Lexemes and their places -/

/-- The lexemes of a source, up to its end or to a character where none starts. -/
def lexemesOf (source : String) : List Lexeme :=
  (Lexeme.scan source.toList).1

/-- The text of a source before the lexeme with this number. Behind the last one it is all that was
scanned. -/
def textBefore (source : String) (i : Nat) : String :=
  String.ofList (((lexemesOf source).take i).flatMap Lexeme.text)

theorem Lexeme.getElem?_placed (p : Position) (ls : List Lexeme) (i : Nat) :
    (placed p ls)[i]? =
      ls[i]?.map fun l => (p.after ((ls.take i).flatMap Lexeme.text), l) := by
  induction ls generalizing p i with
  | nil => rfl
  | cons l ls ih =>
    cases i with
    | zero => rfl
    | succ i =>
      rw [placed, List.getElem?_cons_succ, List.getElem?_cons_succ, ih, List.take_succ_cons,
        List.flatMap_cons, Position.after_append]

theorem getElem?_placed_lexemesOf (source : String) (i : Nat) :
    (Lexeme.placed {} (lexemesOf source))[i]? =
      (lexemesOf source)[i]?.map fun l => (.behind (textBefore source i), l) := by
  rw [Lexeme.getElem?_placed, Position.after_eq_behind]
  rfl

/-- What is left of a source behind the text of some of its lexemes. -/
theorem exists_append_textBefore (source : String) (i : Nat) :
    source = textBefore source i ++ String.ofList
      (((lexemesOf source).drop i).flatMap Lexeme.text ++ (Lexeme.scan source.toList).2) := by
  have hsource := (Lexeme.scan_eq source.toList).1
  rw [textBefore, ← String.ofList_append, ← List.append_assoc, ← List.flatMap_append,
    List.take_append_drop, lexemesOf, ← hsource, String.ofList_toList]

/-! ## Entries about lexemes -/

/-- An entry that a rule of the grammar was matched. -/
def Entry.isMatch (entry : Entry) : Bool :=
  entry.level == .trace && entry.message == "Matched grammar rule"

/-- The entry that a rule was matched at a position. -/
def Entry.matched (rule : Rule) (p : Position) : Entry where
  level := .trace
  message := "Matched grammar rule"
  values := [("rule", rule.name), ("row", toString p.row), ("column", toString p.column)]

namespace Journal

theorem filter_lexemes (found : List Lexeme) :
    (lexemes found).filter Entry.isMatch = lexemes found := by
  refine List.filter_eq_self.2 fun entry hentry => ?_
  obtain ⟨_, -, rfl⟩ := List.mem_map.1 hentry
  rfl

theorem filter_tokenizing (source : String) :
    (tokenizing source).filter Entry.isMatch = lexemes (lexemesOf source) := by
  rw [tokenizing, List.filter_append, filter_lexemes]
  cases tokenize source <;> exact List.append_nil _

theorem filter_parsing (strict : Bool) (source : String) :
    (parsing strict source).filter Entry.isMatch = lexemes (lexemesOf source) := by
  rw [parsing, List.filter_append, List.filter_append, List.filter_append, filter_tokenizing]
  cases (tokenize source).bind Stream.build <;> cases parse strict source <;> simp [Entry.isMatch]

/-- Every stage but the first scans the source once. -/
theorem filter_printing {stage : Option Stage} (h : stage ≠ some .print) (settings : Settings)
    (source : String) :
    (printing stage settings source).filter Entry.isMatch = lexemes (lexemesOf source) := by
  rcases stage with _ | _ | _ | _
  · rw [printing, compiling, List.filter_append, filter_parsing]
    cases parse settings.strict source <;> simp [Entry.isMatch]
  · exact absurd rfl h
  · rw [printing, listingTokens, List.filter_append, List.filter_append, filter_tokenizing]
    cases tokenize source <;> simp [Entry.isMatch]
  · exact filter_parsing settings.strict source

theorem filter_configuring (place : ConfigPlace) (userConfig : Option String) :
    (configuring place userConfig).filter Entry.isMatch = [] := by
  cases place <;> cases userConfig <;> simp [configuring, Entry.isMatch]

/-- All other entries of a command are about its surroundings and its result. -/
theorem filter_executing {o : Options} {reader : ConfigReader} {around : Surroundings}
    {settings : Settings} {source : String} (hsettings : o.settings reader around = .ok settings)
    (hsource : o.source around = .ok source) :
    (executing o reader around).filter Entry.isMatch =
      (printing o.stage settings source).filter Entry.isMatch := by
  have hrunning : (running o reader around).filter Entry.isMatch =
      (printing o.stage settings source).filter Entry.isMatch := by
    simp only [running, List.filter_append, filter_configuring, hsettings, hsource]
    cases (o.result reader around).1 <;> simp [Entry.isMatch]
  simp only [executing, List.filter_append, hrunning]
  cases (o.result reader around).1 <;> cases threshold? o.logLevel <;>
    simp [Entry.isMatch, List.filter_eq_nil_iff]

end Journal

/-- The entries of a journal about lexemes are one for each lexeme of the source, in order, with the
position behind the text before it. -/
def Journal.Follows (journal : Journal) (source : String) : Prop :=
  ∀ i, (journal.filter Entry.isMatch)[i]? =
    (lexemesOf source)[i]?.map fun l => Entry.matched l.rule (.behind (textBefore source i))

theorem Journal.follows_of_filter {journal : Journal} {source : String}
    (h : journal.filter Entry.isMatch = lexemes (lexemesOf source)) : journal.Follows source := by
  intro i
  rw [h, lexemes, List.getElem?_map, getElem?_placed_lexemesOf, Option.map_map]
  rfl

/-! ## Characters in messages -/

/-- The characters with a short escape, and what stands behind the backslash there. -/
def shortEscapes : List (Char × Char) :=
  [('\x00', '0'), ('\t', 't'), ('\r', 'r'), ('\n', 'n'), ('\'', '\''), ('"', '"'), ('\\', '\\')]

/-- How a message shows a character: as it is, if it shows and is no quote or backslash, and else by
a short escape or by its number. -/
inductive Shown : Char → String → Prop where
  | itself {c : Char} (hshows : isHidden c = false) (hplain : c ∉ ['\'', '"', '\\']) :
    Shown c (String.singleton c)
  | short {c letter : Char} (hshort : (c, letter) ∈ shortEscapes) :
    Shown c (String.ofList ['\\', letter])
  | numbered {c : Char} (hhidden : isHidden c = true) (hlong : c ∉ ['\x00', '\t', '\r', '\n']) :
    Shown c ("\\u\x7b" ++ String.ofList (Nat.toDigits 16 c.toNat) ++ "\x7d")

theorem shown_escape (c : Char) : Shown c (escape c) := by
  by_cases hshort : ∃ letter, (c, letter) ∈ shortEscapes
  · obtain ⟨letter, hletter⟩ := hshort
    have hescape : escape c = String.ofList ['\\', letter] := by
      simp only [shortEscapes, List.mem_cons, Prod.mk.injEq, List.not_mem_nil, or_false] at hletter
      rcases hletter with ⟨rfl, rfl⟩ | ⟨rfl, rfl⟩ | ⟨rfl, rfl⟩ | ⟨rfl, rfl⟩ | ⟨rfl, rfl⟩ |
        ⟨rfl, rfl⟩ | ⟨rfl, rfl⟩ <;> rfl
    rw [hescape]
    exact .short hletter
  · have hlong : ∀ pair ∈ shortEscapes, c ≠ pair.1 := by
      rintro ⟨_, letter⟩ hpair rfl
      exact hshort ⟨letter, hpair⟩
    simp only [shortEscapes, List.forall_mem_cons] at hlong
    obtain ⟨hnull, htab, hreturn, hfeed, hsingle, hdouble, hslash, -⟩ := hlong
    rw [escape, if_neg hnull, if_neg htab, if_neg hreturn, if_neg hfeed, if_neg hsingle,
      if_neg hdouble, if_neg hslash]
    cases hhidden : isHidden c with
    | true => exact .numbered hhidden (by simp [hnull, htab, hreturn, hfeed])
    | false =>
      rw [← String.singleton_eq_ofList]
      exact .itself hhidden (by simp [hsingle, hdouble, hslash])

theorem toDigits_ne {m n : Nat} (hm : m < 16) (hn : 16 ≤ n) :
    Nat.toDigits 16 m ≠ Nat.toDigits 16 n := by
  rw [Nat.toDigits_of_lt_base hm, Nat.toDigits_of_base_le (by decide) hn, ← List.nil_append [_]]
  intro h
  exact Nat.toDigits_ne_nil (List.append_inj' h rfl).1.symm

theorem toDigits_injective : Function.Injective (Nat.toDigits 16) := by
  have hdigit : ∀ a < 16, ∀ b < 16, Nat.digitChar a = Nat.digitChar b → a = b := by decide
  intro m
  -- Without its last digit a number is smaller.
  induction m using Nat.strongRecOn with
  | ind m ih =>
    intro n h
    rcases Nat.lt_or_ge m 16 with hm | hm <;> rcases Nat.lt_or_ge n 16 with hn | hn
    · rw [Nat.toDigits_of_lt_base hm, Nat.toDigits_of_lt_base hn] at h
      exact hdigit m hm n hn (List.singleton_inj.1 h)
    · exact absurd h (toDigits_ne hm hn)
    · exact absurd h.symm (toDigits_ne hn hm)
    · rw [Nat.toDigits_of_base_le (by decide) hm, Nat.toDigits_of_base_le (by decide) hn] at h
      obtain ⟨hfront, hlast⟩ := List.append_inj' h rfl
      have hdiv := ih (m / 16) (by omega) hfront
      have hmod := hdigit (m % 16) (by omega) (n % 16) (by omega) (List.singleton_inj.1 hlast)
      omega

/-- No two characters are shown alike. -/
theorem Shown.unique {c d : Char} {text : String} (hc : Shown c text) (hd : Shown d text) :
    c = d := by
  generalize htext : text = text' at hd
  -- The three ways to show a character give texts of different lengths.
  rw [← String.toList_inj] at htext
  cases hc with
  | itself _ _ =>
    rw [String.toList_singleton] at htext
    cases hd with
    | itself _ _ => simpa using htext
    | short _ => simp at htext
    | numbered _ _ => simp at htext
  | short hc =>
    rw [String.toList_ofList] at htext
    cases hd with
    | itself _ _ => simp at htext
    | short hd =>
      have hletters : (shortEscapes.map Prod.snd).Nodup := by decide
      rw [String.toList_ofList] at htext
      exact congrArg Prod.fst (List.inj_on_of_nodup_map hletters hc hd (by simpa using htext))
    | numbered _ _ => simp at htext
  | numbered _ _ =>
    cases hd with
    | itself _ _ => simp at htext
    | short _ => simp at htext
    | numbered _ _ =>
      exact Char.toNat_inj.1 (toDigits_injective (by simpa using htext))
/-! ## Reported positions -/

theorem exists_of_getElem?_lexemesOf {source : String} {i : Nat} {l : Lexeme}
    (h : (lexemesOf source)[i]? = some l) :
    ∃ rest, source = textBefore source i ++ String.ofList l.text ++ rest := by
  obtain ⟨hlt, rfl⟩ := List.getElem?_eq_some_iff.1 h
  have hsource := exists_append_textBefore source i
  rw [List.drop_eq_getElem_cons hlt, List.flatMap_cons, List.append_assoc, String.ofList_append,
    ← String.append_assoc] at hsource
  exact ⟨_, hsource⟩

/-- The fault of a scan names the position behind all that was scanned. -/
theorem behind_of_tokenize {source : String} {fault : Fault} (h : tokenize source = .error fault) :
    ∃ c rest, source = textBefore source (lexemesOf source).length ++ String.singleton c ++ rest ∧
      fault = .unexpectedCharacter c (.behind (textBefore source (lexemesOf source).length)) := by
  obtain ⟨ls, c, rest, hscan, rfl⟩ := tokenize_eq_error_iff.1 h
  have hbefore : textBefore source (lexemesOf source).length =
      String.ofList (ls.flatMap Lexeme.text) := by
    rw [textBefore, List.take_length, lexemesOf, hscan]
  have hsource := exists_append_textBefore source (lexemesOf source).length
  rw [List.drop_length, List.flatMap_nil, List.nil_append, hscan] at hsource
  refine ⟨c, String.ofList rest, ?_, ?_⟩
  · rw [String.append_assoc, String.singleton_eq_ofList, ← String.ofList_append]
    exact hsource
  · rw [hbefore, Position.after_eq_behind]

/-- Wherever a scan starts a lexeme or stops, its position is that behind the text before. The message
about a character shows the character and names this position, and the entries of the journal about
lexemes name theirs. -/
theorem positions_of_source (source : String) :
    (∀ i l, (lexemesOf source)[i]? = some l →
      (∃ rest, source = textBefore source i ++ String.ofList l.text ++ rest) ∧
      (Lexeme.placed {} (lexemesOf source))[i]? = some (.behind (textBefore source i), l)) ∧
    (∀ fault, tokenize source = .error fault → ∃ before c rest row column shown,
      before = textBefore source (lexemesOf source).length ∧
      source = before ++ String.singleton c ++ rest ∧
      fault = .unexpectedCharacter c (.behind before) ∧
      row = 1 + lineFeeds before ∧ column = 1 + (lastLine before).length ∧
      Shown c shown ∧ (∀ d, Shown d shown → d = c) ∧
      fault.message = s!"unexpected character `{shown}` at row {row}, column {column}") ∧
    (∀ stage settings, stage ≠ some .print →
      (Journal.printing stage settings source).Follows source) ∧
    ∀ (o : Options) (reader : ConfigReader) (around : Surroundings) (settings : Settings),
      o.stage ≠ some .print → o.settings reader around = .ok settings →
      o.source around = .ok source → (Journal.executing o reader around).Follows source := by
  refine ⟨?starts, ?stop, ?printing, ?executing⟩
  case starts =>
    intro i l hl
    refine ⟨exists_of_getElem?_lexemesOf hl, ?_⟩
    rw [getElem?_placed_lexemesOf, hl, Option.map_some]
  case stop =>
    intro fault hfault
    obtain ⟨c, rest, hsource, rfl⟩ := behind_of_tokenize hfault
    have hshown := shown_escape c
    exact ⟨_, c, rest, _, _, _, rfl, hsource, rfl, rfl, rfl, hshown,
      fun d hd => hd.unique hshown, rfl⟩
  case printing =>
    intro stage settings hstage
    exact Journal.follows_of_filter (Journal.filter_printing hstage settings source)
  case executing =>
    intro o reader around settings hstage hsettings hsource
    refine Journal.follows_of_filter ?_
    rw [Journal.filter_executing hsettings hsource, Journal.filter_printing hstage]

/-- A line end of two characters and one inside a string start a new row each, and a character of two
bytes is one column. A character that does not show is named by its number, and a quote stands behind
a backslash. -/
theorem positions_of_source_shown :
    (tokenize "x\r\n\x60\né\x60?" = .error (.unexpectedCharacter '?' ⟨8, 3, 3⟩) ∧
      Fault.message (.unexpectedCharacter '?' ⟨8, 3, 3⟩) =
        "unexpected character `?` at row 3, column 3") ∧
    (tokenize "x\u200b" = .error (.unexpectedCharacter '\u200b' ⟨1, 1, 2⟩) ∧
      Fault.message (.unexpectedCharacter '\u200b' ⟨1, 1, 2⟩) =
        "unexpected character `\\u\x7b200b\x7d` at row 1, column 2") ∧
    tokenize "\n'" = .error (.unexpectedCharacter '\'' ⟨1, 2, 1⟩) ∧
      Fault.message (.unexpectedCharacter '\'' ⟨1, 2, 1⟩) =
        "unexpected character `\\'` at row 2, column 1" := by
  have hmessage (source : String) (c : Char) (p : Position)
      (h : tokenize source = .error (.unexpectedCharacter c p)) :
      ∃ shown, Shown c shown ∧ Fault.message (.unexpectedCharacter c p) =
        s!"unexpected character `{shown}` at row {p.row}, column {p.column}" := by
    obtain ⟨-, hstop, -⟩ := positions_of_source source
    obtain ⟨before, _, rest, _, _, shown, -, -, hbehind, rfl, rfl, hshown, -, hmessage⟩ := hstop _ h
    obtain ⟨rfl, rfl⟩ := Fault.unexpectedCharacter.inj hbehind
    exact ⟨shown, hshown, hmessage⟩
  refine ⟨?plain, ?hidden, ?quote⟩
  case plain =>
    have hfault : tokenize "x\r\n\x60\né\x60?" = .error (.unexpectedCharacter '?' ⟨8, 3, 3⟩) := by
      decide +kernel
    obtain ⟨shown, hshown, hmessage⟩ := hmessage _ _ _ hfault
    refine ⟨hfault, hmessage.trans ?_⟩
    cases hshown with
    | itself _ _ => decide +kernel
    | short hshort => simp [shortEscapes] at hshort
    | numbered hhidden _ => exact absurd hhidden (by decide +kernel)
  case hidden =>
    have hfault : tokenize "x\u200b" = .error (.unexpectedCharacter '\u200b' ⟨1, 1, 2⟩) := by
      decide +kernel
    obtain ⟨shown, hshown, hmessage⟩ := hmessage _ _ _ hfault
    refine ⟨hfault, hmessage.trans ?_⟩
    cases hshown with
    | itself hshows _ => exact absurd hshows (by decide +kernel)
    | short hshort => simp [shortEscapes] at hshort
    | numbered _ _ => decide +kernel
  case quote =>
    have hfault : tokenize "\n'" = .error (.unexpectedCharacter '\'' ⟨1, 2, 1⟩) := by
      decide +kernel
    obtain ⟨shown, hshown, hmessage⟩ := hmessage _ _ _ hfault
    refine ⟨hfault, hmessage.trans ?_⟩
    cases hshown with
    | itself _ hplain => simp at hplain
    | short hshort =>
      obtain rfl : _ = '\'' := by simpa [shortEscapes] using hshort
      decide +kernel
    | numbered hhidden _ => exact absurd hhidden (by decide +kernel)

end Jawn
