import Jawn.Command.Run
import Jawn.Proofs.Acceptance

/-!
# Streams that are refused

A stream that cannot be read is refused with one diagnostic. What it shows depends only on what is
left behind the complete phrases at the front of the stream:

* `Tag.exists_takes_append_iff`: operands can be completed if and only if they are not too many and
  the one from a closed set, if it is among them, is in this set;
* `Stream.fill_eq_error_iff`: the slots of a tag stay open at the first token that does not fit;
* `Stream.verdict_of_constructs`, `Stream.constructs_of_verdict`: the reading of a stream stops for
  one of five reasons;
* `Stream.prefix_of_verdict`: the complete phrases before that place are as many as possible;
* `Stream.endsAt_iff`: where the last token ends;
* `Stream.build_eq_error_iff_verdict`: the code and the labels of the diagnostic of a stream.
-/

namespace Jawn

/-! ## Operands that have been read so far -/

/-- Operands that a tag can have read so far: not too many, and the one from a closed set, if it is
among them, in this set. -/
structure Tag.Begun (tag : Tag) (operands : List String) : Prop where
  length_le : operands.length ≤ tag.arity
  choice : ∀ place options, tag.choice? = some (place, options) →
    ∀ text ∈ operands[place]?, text ∈ options

/-- The token cannot be the next operand of the tag: it is no operand at all, or not in the closed
set to which the next operand must belong. -/
def Tag.Refuses (tag : Tag) (operands : List String) : Token → Prop
  | .operand text => ∃ options, tag.choice? = some (operands.length, options) ∧ text ∉ options
  | .tag _ | .eof => True

namespace Slots

/-- What is still missing of a construct behind one more operand, if the operand fits. -/
def step : Slots → String → Option Slots
  | .done _, _ => none
  | .text next, t => some (next t)
  | .quote next, t => (Quote.ofString? t).map next
  | .magnitude next, t => (Magnitude.ofString? t).map next
  | .shift next, t => (Shift.ofString? t).map next

/-- What is still missing behind some operands, if they fit. -/
def after (slots : Slots) (texts : List String) : Option Slots :=
  texts.foldlM step slots

/-- What the next token must be, if anything is missing. -/
def expected? : Slots → Option Expected
  | .done _ => none
  | .text _ => some .operand
  | .quote _ => some .quote
  | .magnitude _ => some .magnitude
  | .shift _ => some .shift

theorem after_cons (slots : Slots) (t : String) (ts : List String) :
    slots.after (t :: ts) = (slots.step t).bind fun next => next.after ts :=
  List.foldlM_cons

theorem complete_cons (slots : Slots) (t : String) (ts : List String) :
    slots.complete (t :: ts) = (slots.step t).bind fun next => next.complete ts := by
  cases slots with
  | done _ => rfl
  | text _ => rfl
  | quote _ | magnitude _ | shift _ =>
    rw [complete, step, Option.bind_map]
    rfl

theorem complete_append (slots : Slots) (texts more : List String) :
    slots.complete (texts ++ more) = (slots.after texts).bind fun left => left.complete more := by
  induction texts generalizing slots with
  | nil => rfl
  | cons t texts ih =>
    rw [List.cons_append, complete_cons, after_cons, Option.bind_assoc]
    simp only [ih]

theorem after_append (slots : Slots) (texts more : List String) :
    slots.after (texts ++ more) = (slots.after texts).bind fun left => left.after more :=
  List.foldlM_append

/-- No closed set is empty, so what is missing can always be supplied. -/
theorem exists_complete_of_slots (slots : Slots) : ∃ texts c, slots.complete texts = some c := by
  induction slots with
  | done c => exact ⟨[], c, rfl⟩
  | text next ih =>
    obtain ⟨texts, c, h⟩ := ih ""
    exact ⟨"" :: texts, c, h⟩
  | quote next ih =>
    obtain ⟨texts, c, h⟩ := ih .double
    exact ⟨Quote.display .double :: texts, c, h⟩
  | magnitude next ih =>
    obtain ⟨texts, c, h⟩ := ih .muchGreater
    exact ⟨Magnitude.display .muchGreater :: texts, c, h⟩
  | shift next ih =>
    obtain ⟨texts, c, h⟩ := ih .left
    exact ⟨Shift.display .left :: texts, c, h⟩

end Slots

namespace Tag

variable {tag : Tag} {texts : List String} {text : String} {slots : Slots}

/-- Some operands can be completed if and only if the tag can have read them so far. -/
theorem exists_takes_append_iff : (∃ more, tag.Takes (texts ++ more)) ↔ tag.Begun texts := by
  constructor
  · rintro ⟨more, hlength, hchoice⟩
    rw [List.length_append] at hlength
    refine ⟨by omega, fun place options hplace text htext => ?_⟩
    obtain ⟨option, hoption, hget⟩ := hchoice place options hplace
    rw [List.getElem?_append_left (List.getElem?_eq_some_iff.1 htext).1, htext] at hget
    rwa [Option.some.inj hget]
  · rintro ⟨hlength, hchoice⟩
    -- The missing operands are taken from any that the tag takes.
    obtain ⟨all, c, hc⟩ := Slots.exists_complete_of_slots tag.slots
    obtain ⟨hall, hchoice'⟩ := Slots.takes_of_complete hc
    refine ⟨all.drop texts.length, ?_, fun place options hplace => ?_⟩
    · rw [List.length_append, List.length_drop]
      omega
    · obtain ⟨option, hoption, hget⟩ := hchoice' place options hplace
      by_cases hlt : place < texts.length
      · exact ⟨texts[place], hchoice place options hplace _ (List.getElem?_eq_getElem hlt),
          by rw [List.getElem?_append_left hlt, List.getElem?_eq_getElem hlt]⟩
      · refine ⟨option, hoption, ?_⟩
        rw [List.getElem?_append_right (by omega), List.getElem?_drop, ← hget]
        congr 1
        omega

/-- Slots are left behind some operands if and only if the tag can have read them so far. -/
theorem exists_after_iff : (∃ slots, tag.slots.after texts = some slots) ↔ tag.Begun texts := by
  rw [← exists_takes_append_iff]
  constructor
  · rintro ⟨slots, hslots⟩
    obtain ⟨more, c, hc⟩ := slots.exists_complete_of_slots
    refine ⟨more, Slots.takes_of_complete (c := c) ?_⟩
    rw [Slots.complete_append, hslots]
    exact hc
  · rintro ⟨more, hmore⟩
    obtain ⟨c, hc⟩ := Slots.exists_complete hmore
    rw [Slots.complete_append] at hc
    obtain ⟨slots, hslots, -⟩ := Option.bind_eq_some_iff.1 hc
    exact ⟨slots, hslots⟩

/-- Something is missing behind some operands if and only if they are fewer than the tag takes. -/
theorem expected?_ne_none_iff (h : tag.slots.after texts = some slots) :
    slots.expected? ≠ none ↔ texts.length < tag.arity := by
  have hle := (exists_after_iff.1 ⟨slots, h⟩).length_le
  have hcomplete : ∀ more, tag.slots.complete (texts ++ more) = slots.complete more := by
    intro more
    rw [Slots.complete_append, h]
    rfl
  cases slots with
  | done c =>
    have hc : tag.slots.complete (texts ++ []) = some c := hcomplete []
    have hlength := (Slots.takes_of_complete hc).length_eq
    rw [List.append_nil] at hlength
    simp [Slots.expected?, hlength]
  | _ =>
    have hne : texts.length ≠ tag.arity := by
      intro hlength
      -- No operand is left to take, yet the slots are not filled.
      obtain ⟨more, hmore⟩ := exists_takes_append_iff.2 (exists_after_iff.1 ⟨_, h⟩)
      have hnil : more = [] := by
        have := hmore.length_eq
        rw [List.length_append] at this
        exact List.length_eq_zero_iff.1 (by omega)
      subst hnil
      obtain ⟨c, hc⟩ := Slots.exists_complete hmore
      rw [hcomplete] at hc
      cases hc
    simp only [Slots.expected?]
    simpa using Nat.lt_of_le_of_ne hle hne

/-- An operand does not fit if and only if it is not in the closed set to which it must belong. -/
theorem after_eq_none_iff (hbegun : tag.Begun texts) (hlt : texts.length < tag.arity) :
    tag.slots.after (texts ++ [text]) = none ↔ tag.Refuses texts (.operand text) := by
  have hnone : tag.slots.after (texts ++ [text]) = none ↔ ¬ tag.Begun (texts ++ [text]) := by
    rw [← exists_after_iff, ← Option.not_isSome_iff_eq_none, Option.isSome_iff_exists]
  rw [hnone]
  constructor
  · intro h
    by_contra hfits
    refine h ⟨by rw [List.length_append]; exact hlt, fun place options hplace t ht => ?_⟩
    rw [List.getElem?_append] at ht
    split at ht
    · exact hbegun.choice place options hplace t ht
    · obtain ⟨hzero, rfl⟩ : place - texts.length = 0 ∧ text = t := by
        simpa [List.getElem?_singleton] using ht
      obtain rfl : place = texts.length := by omega
      by_contra hmem
      exact hfits ⟨options, hplace, hmem⟩
  · rintro ⟨options, hplace, hmem⟩ h
    exact hmem (h.choice _ options hplace text (by simp))

end Tag

/-! ## Where the reading stops -/

namespace Stream

/-- The slots do not take the token at the front of a stream. -/
def Unfit (slots : Slots) (tokens : Stream) : Prop :=
  ∀ text span rest, tokens = ⟨.operand text, span⟩ :: rest → slots.step text = none

/-- If the next token does not fit, nothing more is taken from the stream. -/
theorem fill_of_unfit {slots : Slots} {tokens rest : Stream} {expected : Expected}
    (h : Unfit slots tokens) (span : Span) :
    fill slots span tokens = .error (expected, rest) ↔
      slots.expected? = some expected ∧ tokens = rest := by
  cases slots with
  | done c => simp [fill, Slots.expected?]
  | text next =>
    unfold fill
    split
    · cases h _ _ _ rfl
    · simp [Slots.expected?]
  | quote _ | magnitude _ | shift _ =>
    unfold fill
    split
    · have hnone := Option.map_eq_none_iff.1 (h _ _ _ rfl)
      simp [hnone, Slots.expected?]
    · simp [Slots.expected?]

/-- An operand that fits is taken from the stream. -/
theorem fill_of_step {slots next : Slots} {operand : Located String}
    (h : slots.step operand.value = some next) (span : Span) (rest : Stream) :
    fill slots span (Phrase.operandToken operand :: rest) =
      fill next (span.union operand.span) rest := by
  cases slots with
  | done c => cases h
  | text next =>
    obtain rfl := Option.some.inj h
    rw [Phrase.operandToken, fill]
  | quote _ | magnitude _ | shift _ =>
    obtain ⟨choice, hchoice, rfl⟩ := Option.map_eq_some_iff.1 h
    simp [Phrase.operandToken, fill, hchoice]

/-- The slots stay open at the first token that does not fit them. -/
theorem fill_eq_error_iff {slots : Slots} {span : Span} {tokens rest : Stream}
    {expected : Expected} :
    fill slots span tokens = .error (expected, rest) ↔
      ∃ (operands : List (Located String)) (left : Slots),
        tokens = operands.map Phrase.operandToken ++ rest ∧
          slots.after (operands.map Located.value) = some left ∧
          left.expected? = some expected ∧ Unfit left rest := by
  constructor
  · intro h
    induction tokens generalizing slots span with
    | nil =>
      have hunfit : Unfit slots [] := by rintro _ _ _ ⟨⟩
      obtain ⟨hexpected, rfl⟩ := (fill_of_unfit hunfit span).1 h
      exact ⟨[], slots, rfl, rfl, hexpected, hunfit⟩
    | cons token tokens ih =>
      by_cases hunfit : Unfit slots (token :: tokens)
      · obtain ⟨hexpected, rfl⟩ := (fill_of_unfit hunfit span).1 h
        exact ⟨[], slots, rfl, rfl, hexpected, hunfit⟩
      · simp only [Unfit, not_forall] at hunfit
        obtain ⟨text, s, _, ⟨⟩, hstep⟩ := hunfit
        obtain ⟨next, hnext⟩ := Option.ne_none_iff_exists'.1 hstep
        have hfill : fill slots span (Phrase.operandToken ⟨text, s⟩ :: tokens) =
            fill next (span.union s) tokens := fill_of_step hnext span tokens
        obtain ⟨operands, left, rfl, hleft, hrest⟩ := ih (hfill.symm.trans h)
        refine ⟨⟨text, s⟩ :: operands, left, rfl, ?_, hrest⟩
        rw [List.map_cons, Slots.after_cons, hnext]
        exact hleft
  · rintro ⟨operands, left, rfl, hleft, hexpected, hunfit⟩
    induction operands generalizing slots span with
    | nil =>
      obtain rfl := Option.some.inj hleft
      exact (fill_of_unfit hunfit span).2 ⟨hexpected, rfl⟩
    | cons operand operands ih =>
      rw [List.map_cons, Slots.after_cons] at hleft
      obtain ⟨next, hnext, hleft⟩ := Option.bind_eq_some_iff.1 hleft
      rw [List.map_cons, List.cons_append, fill_of_step hnext]
      exact ih hleft

end Stream

/-- The spans that a diagnostic marks, and whether they are the fault itself. -/
def Diagnostic.marks (d : Diagnostic) : List (Span × Bool) :=
  d.labels.map fun label => (label.span, label.isPrimary)

namespace Stream

/-- What the diagnostic of a refused stream has to show, given what is left of the stream behind its
complete phrases: the code, and the spans that are marked. The whole stream ends at `stop`. -/
inductive Verdict (stop : Nat) : Stream → Code → List (Span × Bool) → Prop where
  /-- A phrase lacks operands at the end of the stream or at an end marker. -/
  | incomplete {tag : Located Tag} {operands : List (Located String)} {rest : Stream}
      (hbegun : tag.value.Begun (operands.map Located.value))
      (hlt : operands.length < tag.value.arity)
      (hrest : ∀ token ∈ rest.head?, token.value = .eof) :
    Verdict stop ((Phrase.mk tag operands).tokens ++ rest) .incompleteInput
      [(⟨tag.span.start, max stop tag.span.stop⟩, true)]
  /-- A phrase lacks operands and goes on with another token. -/
  | misfit {tag : Located Tag} {operands : List (Located String)} {found : Located Token}
      {rest : Stream} (hbegun : tag.value.Begun (operands.map Located.value))
      (hlt : operands.length < tag.value.arity)
      (hfound : tag.value.Refuses (operands.map Located.value) found.value)
      (hne : found.value ≠ .eof) :
    Verdict stop ((Phrase.mk tag operands).tokens ++ found :: rest) .unexpectedToken
      [(found.span, true), (tag.span, false)]
  /-- An operand stands where a phrase should start. -/
  | stray {operand : Located String} {rest : Stream} :
    Verdict stop (Phrase.operandToken operand :: rest) .unexpectedToken [(operand.span, true)]
  /-- The stream ends without an end marker. -/
  | endless : Verdict stop [] .incompleteInput [(⟨stop, stop⟩, true)]
  /-- Something follows the end marker. -/
  | trailing {span : Span} {found : Located Token} {rest : Stream} :
    Verdict stop (⟨.eof, span⟩ :: found :: rest) .unexpectedToken [(found.span, true)]

/-- A tag whose slots stay open is begun, and the next token is refused. -/
theorem begun_of_after {tag : Tag} {texts : List String} {left : Slots} {expected : Expected}
    (h : tag.slots.after texts = some left) (hexpected : left.expected? = some expected)
    (rest : Stream) :
    tag.Begun texts ∧ texts.length < tag.arity ∧
      (Unfit left rest ↔ ∀ token ∈ rest.head?, tag.Refuses texts token.value) := by
  have hbegun := Tag.exists_after_iff.1 ⟨left, h⟩
  have hlt : texts.length < tag.arity := (Tag.expected?_ne_none_iff h).1 (by simp [hexpected])
  refine ⟨hbegun, hlt, ?_⟩
  have hstep : ∀ text, left.step text = none ↔ tag.Refuses texts (.operand text) := by
    intro text
    rw [← Tag.after_eq_none_iff hbegun hlt, Slots.after_append, h, Option.bind_some,
      Slots.after_cons]
    cases left.step text <;> simp [Slots.after]
  constructor
  · intro hunfit token htoken
    obtain ⟨more, rfl⟩ := List.head?_eq_some_iff.1 htoken
    obtain ⟨_ | text | _, span⟩ := token
    · trivial
    · exact (hstep text).1 (hunfit text span more rfl)
    · trivial
  · rintro hrefuses text span more rfl
    exact (hstep text).2 (hrefuses _ rfl)

theorem ne_nothing_of_fill {slots : Slots} {span : Span} {tokens rest : Stream}
    {expected : Expected} (h : fill slots span tokens = .error (expected, rest)) :
    expected ≠ .nothing := by
  obtain ⟨_, left, -, -, hexpected, -⟩ := fill_eq_error_iff.1 h
  cases left <;> cases hexpected <;> decide

/-- The slots of a tag stay open if it is begun and the next token is refused. -/
theorem exists_fill_eq_error_iff {tag : Tag} {span : Span} {tokens rest : Stream} :
    (∃ expected, fill tag.slots span tokens = .error (expected, rest)) ↔
      ∃ operands : List (Located String), tokens = operands.map Phrase.operandToken ++ rest ∧
        tag.Begun (operands.map Located.value) ∧ operands.length < tag.arity ∧
        ∀ token ∈ rest.head?, tag.Refuses (operands.map Located.value) token.value := by
  constructor
  · rintro ⟨expected, h⟩
    obtain ⟨operands, left, rfl, hleft, hexpected, hunfit⟩ := fill_eq_error_iff.1 h
    obtain ⟨hbegun, hlt, hiff⟩ := begun_of_after hleft hexpected rest
    exact ⟨operands, rfl, hbegun, by simpa using hlt, hiff.1 hunfit⟩
  · rintro ⟨operands, rfl, hbegun, hlt, hrefuses⟩
    obtain ⟨left, hleft⟩ := Tag.exists_after_iff.2 hbegun
    have hopen : left.expected? ≠ none := by
      rw [Tag.expected?_ne_none_iff hleft, List.length_map]
      exact hlt
    obtain ⟨expected, hexpected⟩ := Option.ne_none_iff_exists'.1 hopen
    obtain ⟨-, -, hiff⟩ := begun_of_after hleft hexpected rest
    exact ⟨expected, fill_eq_error_iff.2 ⟨operands, left, rfl, hleft, hexpected, hiff.2 hrefuses⟩⟩

section

variable {tag : Tag} {operands : List (Located String)} {rest : Stream}
  (hbegun : tag.Begun (operands.map Located.value)) (hlt : operands.length < tag.arity)

include hbegun hlt

theorem exists_fill_error_of_eof (hrest : ∀ token ∈ rest.head?, token.value = .eof) (span : Span) :
    ∃ expected, fill tag.slots span (operands.map Phrase.operandToken ++ rest) =
      .error (expected, rest) := by
  refine exists_fill_eq_error_iff.2 ⟨operands, rfl, hbegun, hlt, fun token htoken => ?_⟩
  rw [hrest token htoken]
  trivial

theorem exists_fill_error_of_refuses {found : Located Token}
    (hfound : tag.Refuses (operands.map Located.value) found.value) (span : Span) :
    ∃ expected, fill tag.slots span (operands.map Phrase.operandToken ++ found :: rest) =
      .error (expected, found :: rest) := by
  refine exists_fill_eq_error_iff.2 ⟨operands, rfl, hbegun, hlt, ?_⟩
  rintro _ ⟨⟩
  exact hfound

end

/-- Inside a phrase, the end marker counts as the end of the stream. -/
theorem Stop.fault_of_eof {expected : Expected} {tag : Located Tag} {rest : Stream}
    (hexpected : expected ≠ .nothing) (hrest : ∀ token ∈ rest.head?, token.value = .eof)
    (stop : Nat) :
    (Stop.mk expected (some tag) rest).fault stop = .incompleteConstruct tag stop := by
  cases rest with
  | nil => rfl
  | cons found rest => exact if_pos ⟨hrest found rfl, hexpected⟩

theorem Stop.fault_of_ne {expected : Expected} {reading : Option (Located Tag)}
    {found : Located Token} {rest : Stream} (h : found.value ≠ .eof ∨ expected = .nothing)
    (stop : Nat) : (Stop.mk expected reading (found :: rest)).fault stop =
      .unexpectedToken expected found reading :=
  if_neg fun ⟨heof, hexpected⟩ => h.elim (absurd heof) (absurd · hexpected)

theorem constructs_of_fill_error {tag : Located Tag} {operands : List (Located String)}
    {rest : Stream} {expected : Expected}
    (h : fill tag.value.slots tag.span (operands.map Phrase.operandToken ++ rest) =
      .error (expected, rest)) :
    constructs ((Phrase.mk tag operands).tokens ++ rest) = .error ⟨expected, some tag, rest⟩ := by
  rw [Phrase.tokens, List.cons_append, constructs]
  split
  · rename_i hfill
    obtain ⟨rfl, rfl⟩ := Prod.mk.inj (Except.error.inj (h.symm.trans hfill))
    rfl
  · rename_i hfill
    cases h.symm.trans hfill

/-- Reading stops behind complete phrases, for one of the reasons. -/
theorem verdict_of_constructs {tokens : Stream} {s : Stop} (h : constructs tokens = .error s) :
    ∃ (phrases : List Phrase) (rest : Stream), tokens = phrases.flatMap Phrase.tokens ++ rest ∧
      (∀ phrase ∈ phrases, phrase.tag.value.Takes phrase.texts) ∧
      ∀ stop, Verdict stop rest (s.fault stop).code (s.fault stop).diagnostic.marks := by
  fun_induction constructs tokens with
  | case1 =>
    obtain rfl := Except.error.inj h
    exact ⟨[], [], rfl, List.forall_mem_nil _, fun stop => .endless⟩
  | case2 text span rest =>
    obtain rfl := Except.error.inj h
    have hstray : ∀ stop, Verdict stop (Phrase.operandToken ⟨text, span⟩ :: rest) .unexpectedToken
        [(span, true)] := fun stop => .stray
    refine ⟨[], _, rfl, List.forall_mem_nil _, fun stop => ?_⟩
    rw [Stop.fault_of_ne (.inl (by simp))]
    exact hstray stop
  | case3 => cases h
  | case4 span rest hrest =>
    obtain rfl := Except.error.inj h
    obtain ⟨found, rest, rfl⟩ := List.exists_cons_of_ne_nil (mt List.isEmpty_iff.2 hrest)
    refine ⟨[], _, rfl, List.forall_mem_nil _, fun stop => ?_⟩
    rw [Stop.fault_of_ne (.inr rfl)]
    exact .trailing
  | case5 tag span rest expected rest' hfill =>
    obtain rfl := Except.error.inj h
    have hexpected := ne_nothing_of_fill hfill
    obtain ⟨operands, rfl, hbegun, hlt, hrefuses⟩ := exists_fill_eq_error_iff.1 ⟨expected, hfill⟩
    refine ⟨[], (Phrase.mk ⟨tag, span⟩ operands).tokens ++ rest', rfl, List.forall_mem_nil _,
      fun stop => ?_⟩
    by_cases hrest : ∀ token ∈ rest'.head?, token.value = .eof
    · rw [Stop.fault_of_eof hexpected hrest]
      exact .incomplete hbegun hlt hrest
    · obtain ⟨found, hfound⟩ := not_forall.1 hrest
      obtain ⟨hhead, hne⟩ := Classical.not_imp.1 hfound
      obtain ⟨rest, rfl⟩ := List.head?_eq_some_iff.1 hhead
      rw [Stop.fault_of_ne (.inl hne)]
      exact .misfit hbegun hlt (hrefuses found rfl) hne
  | case6 tag span rest c rest' hfill ih =>
    cases hrest : constructs rest' with
    | ok program => simp [hrest, Except.map] at h
    | error s' =>
      rw [hrest] at h
      obtain rfl := Except.error.inj h
      obtain ⟨operands, rfl, hcomplete, -⟩ := complete_of_fill hfill
      obtain ⟨phrases, rest, rfl, htakes, hverdict⟩ := ih hrest
      refine ⟨⟨⟨tag, span⟩, operands⟩ :: phrases, rest, by simp [Phrase.tokens], ?_, hverdict⟩
      exact List.forall_mem_cons.2 ⟨Slots.takes_of_complete hcomplete, htakes⟩

/-- Each of the reasons stops the reading at once. -/
theorem constructs_of_verdict {stop : Nat} {rest : Stream} {code : Code}
    {marks : List (Span × Bool)} (h : Verdict stop rest code marks) :
    ∃ s, constructs rest = .error s ∧ (s.fault stop).code = code ∧
      (s.fault stop).diagnostic.marks = marks := by
  cases h with
  | incomplete hbegun hlt hrest =>
    obtain ⟨expected, hfill⟩ := exists_fill_error_of_eof hbegun hlt hrest _
    refine ⟨_, constructs_of_fill_error hfill, ?_⟩
    rw [Stop.fault_of_eof (ne_nothing_of_fill hfill) hrest]
    exact ⟨rfl, rfl⟩
  | misfit hbegun hlt hfound hne =>
    obtain ⟨expected, hfill⟩ := exists_fill_error_of_refuses hbegun hlt hfound _
    refine ⟨_, constructs_of_fill_error hfill, ?_⟩
    rw [Stop.fault_of_ne (.inl hne)]
    exact ⟨rfl, rfl⟩
  | stray =>
    refine ⟨_, by rw [Phrase.operandToken, constructs], ?_⟩
    rw [Stop.fault_of_ne (.inl (by simp))]
    exact ⟨rfl, rfl⟩
  | endless => exact ⟨_, by rw [constructs], rfl, rfl⟩
  | trailing =>
    refine ⟨_, by rw [constructs]; rfl, ?_⟩
    rw [Stop.fault_of_ne (.inr rfl)]
    exact ⟨rfl, rfl⟩

/-! ## The complete phrases in front -/

/-- Complete phrases at the front of a stream, as many as possible, and what is left behind them. -/
structure Splits (tokens : Stream) (phrases : List Phrase) (rest : Stream) : Prop where
  eq_append : tokens = phrases.flatMap Phrase.tokens ++ rest
  takes : ∀ phrase ∈ phrases, phrase.tag.value.Takes phrase.texts
  /-- Any complete phrases at the front of the stream are among these. -/
  longest : ∀ phrases' rest', tokens = phrases'.flatMap Phrase.tokens ++ rest' →
    (∀ phrase ∈ phrases', phrase.tag.value.Takes phrase.texts) → phrases' <+: phrases

theorem operands_append_of_tokens_append {p q : Phrase} {rest rest' : Stream}
    (h : p.tokens ++ rest = q.tokens ++ rest') : p.tag = q.tag ∧
      p.operands.map Phrase.operandToken ++ rest = q.operands.map Phrase.operandToken ++ rest' := by
  obtain ⟨⟨tag, span⟩, operands⟩ := p
  obtain ⟨⟨tag', span'⟩, operands'⟩ := q
  obtain ⟨⟨⟩, hoperands⟩ := List.cons.inj h
  exact ⟨rfl, hoperands⟩

/-- No complete phrase stands where the reading stops. -/
theorem Verdict.not_takes {stop : Nat} {phrase : Phrase} {rest : Stream} {code : Code}
    {marks : List (Span × Bool)} (h : Verdict stop (phrase.tokens ++ rest) code marks) :
    ¬ phrase.tag.value.Takes phrase.texts := by
  intro htakes
  obtain ⟨c, hc⟩ := Slots.exists_complete htakes
  have hfill := fill_of_complete hc phrase.tag.span rest
  generalize htokens : phrase.tokens ++ rest = tokens at h
  cases h with
  | @incomplete tag operands rest' hbegun hlt hrest =>
    obtain ⟨rfl, hoperands⟩ := operands_append_of_tokens_append htokens
    obtain ⟨expected, herror⟩ := exists_fill_error_of_eof hbegun hlt hrest phrase.tag.span
    rw [hoperands] at hfill
    cases hfill.symm.trans herror
  | @misfit tag operands found rest' hbegun hlt hfound hne =>
    obtain ⟨rfl, hoperands⟩ := operands_append_of_tokens_append htokens
    obtain ⟨expected, herror⟩ := exists_fill_error_of_refuses hbegun hlt hfound phrase.tag.span
    rw [hoperands] at hfill
    cases hfill.symm.trans herror
  | _ => cases htokens

/-- A complete phrase at the front of a stream is determined by the stream. -/
theorem tokens_append_inj {p q : Phrase} {rest rest' : Stream}
    (hp : p.tag.value.Takes p.texts) (hq : q.tag.value.Takes q.texts)
    (h : p.tokens ++ rest = q.tokens ++ rest') : p = q ∧ rest = rest' := by
  obtain ⟨htag, hoperands⟩ := operands_append_of_tokens_append h
  have hlength : p.operands.length = q.operands.length := by
    have hp := hp.length_eq
    have hq := hq.length_eq
    rw [Phrase.texts, List.length_map] at hp hq
    rw [hp, hq, htag]
  obtain ⟨hoperands, hrest⟩ := List.append_inj hoperands (by simpa using hlength)
  have hinj : Function.Injective Phrase.operandToken := by
    rintro ⟨_, _⟩ ⟨_, _⟩ ⟨⟩
    rfl
  obtain ⟨tag, operands⟩ := p
  obtain ⟨tag', operands'⟩ := q
  exact ⟨Phrase.mk.injEq .. ▸ ⟨htag, hinj.list_map hoperands⟩, hrest⟩

theorem prefix_of_verdict {stop : Nat} {phrases phrases' : List Phrase} {rest rest' : Stream}
    {code : Code} {marks : List (Span × Bool)} (h : Verdict stop rest code marks)
    (hphrases : ∀ phrase ∈ phrases, phrase.tag.value.Takes phrase.texts)
    (hphrases' : ∀ phrase ∈ phrases', phrase.tag.value.Takes phrase.texts)
    (heq : phrases.flatMap Phrase.tokens ++ rest = phrases'.flatMap Phrase.tokens ++ rest') :
    phrases' <+: phrases := by
  induction phrases generalizing phrases' with
  | nil =>
    cases phrases' with
    | nil => exact List.prefix_refl []
    | cons q phrases' =>
      rw [List.flatMap_nil, List.nil_append, List.flatMap_cons, List.append_assoc] at heq
      rw [heq] at h
      exact absurd (List.forall_mem_cons.1 hphrases').1 h.not_takes
  | cons p phrases ih =>
    cases phrases' with
    | nil => exact List.nil_prefix
    | cons q phrases' =>
      rw [List.forall_mem_cons] at hphrases hphrases'
      rw [List.flatMap_cons, List.flatMap_cons, List.append_assoc, List.append_assoc] at heq
      obtain ⟨rfl, hrest⟩ := tokens_append_inj hphrases.1 hphrases'.1 heq
      exact List.cons_prefix_cons.2 ⟨rfl, ih hphrases.2 hphrases'.2 hrest⟩

theorem Verdict.splits {stop : Nat} {phrases : List Phrase} {rest : Stream} {code : Code}
    {marks : List (Span × Bool)} (h : Verdict stop rest code marks)
    (hphrases : ∀ phrase ∈ phrases, phrase.tag.value.Takes phrase.texts) :
    Splits (phrases.flatMap Phrase.tokens ++ rest) phrases rest :=
  ⟨rfl, hphrases, fun _ _ heq hphrases' => prefix_of_verdict h hphrases hphrases' heq⟩

/-! ## The diagnostic -/

/-- A stream ends where its last token ends, and at the start of the source if it has no token. -/
def EndsAt (tokens : Stream) (stop : Nat) : Prop :=
  (tokens = [] ∧ stop = 0) ∨ ∃ init last, tokens = init ++ [last] ∧ stop = last.span.stop

theorem endsAt_iff {tokens : Stream} {stop : Nat} : tokens.EndsAt stop ↔ tokens.stop = stop := by
  constructor
  · rintro (⟨rfl, rfl⟩ | ⟨init, last, rfl, rfl⟩)
    · rfl
    · rw [Stream.stop, List.getLast?_concat]
  · rintro rfl
    rcases List.eq_nil_or_concat' tokens with rfl | ⟨init, last, rfl⟩
    · exact .inl ⟨rfl, rfl⟩
    · exact .inr ⟨init, last, rfl, by rw [Stream.stop, List.getLast?_concat]⟩

/-- Spans that are in order in the stream are in order in the diagnostic. -/
theorem Verdict.ordered {stop : Nat} {rest : Stream} {code : Code} {marks : List (Span × Bool)}
    (h : Verdict stop rest code marks)
    (hrest : ∀ token ∈ rest, token.span.start ≤ token.span.stop) :
    ∀ mark ∈ marks, mark.1.start ≤ mark.1.stop := by
  cases h with
  | @incomplete tag =>
    have htag := hrest ⟨.tag tag.value, tag.span⟩ (List.mem_cons_self ..)
    simpa using Nat.le_trans htag (Nat.le_max_right ..)
  | @misfit tag _ found =>
    have htag := hrest ⟨.tag tag.value, tag.span⟩ (List.mem_cons_self ..)
    have hfound := hrest found (by simp)
    simpa using ⟨hfound, htag⟩
  | stray =>
    rw [List.forall_mem_singleton]
    exact (List.forall_mem_cons.1 hrest).1
  | endless => simp
  | trailing => simpa using (List.forall_mem_cons.1 (List.forall_mem_cons.1 hrest).2).1

/-- Complete phrases are passed over before the reading stops. -/
theorem constructs_append_error {phrases : List Phrase} {rest : Stream} {s : Stop}
    (hphrases : ∀ phrase ∈ phrases, phrase.tag.value.Takes phrase.texts)
    (h : constructs rest = .error s) :
    constructs (phrases.flatMap Phrase.tokens ++ rest) = .error s := by
  induction phrases with
  | nil => exact h
  | cons phrase phrases ih =>
    rw [List.forall_mem_cons] at hphrases
    obtain ⟨c, hc⟩ := Slots.exists_complete hphrases.1
    have hread : phrase.ReadAs ⟨c, widen phrase.tag.span phrase.operands⟩ := ⟨hc, rfl⟩
    rw [List.flatMap_cons, List.append_assoc, constructs_append hread, ih hphrases.2]
    rfl

theorem build_eq_error_iff {tokens : Stream} {fault : Fault} :
    tokens.build = .error fault ↔
      ∃ s, constructs tokens = .error s ∧ s.fault tokens.stop = fault := by
  rw [build]
  cases constructs tokens <;> simp [Except.mapError]

theorem exists_verdict_of_build {tokens : Stream} {fault : Fault}
    (h : tokens.build = .error fault) : ∃ phrases rest, tokens.Splits phrases rest ∧
      Verdict tokens.stop rest fault.code fault.diagnostic.marks := by
  obtain ⟨s, hs, rfl⟩ := build_eq_error_iff.1 h
  obtain ⟨phrases, rest, rfl, htakes, hverdict⟩ := verdict_of_constructs hs
  exact ⟨phrases, rest, (hverdict 0).splits htakes, hverdict _⟩

/-- A stream is refused with one diagnostic, whose code and labels follow from what is left behind
its complete phrases and from where its last token ends. If the spans of the tokens are in order, so
are those of the labels. -/
theorem build_eq_error_iff_verdict (tokens : Stream) :
    (∀ code marks,
      (∃ fault d, tokens.build = .error fault ∧
        (∀ source, fault.failure source = .source [d] source) ∧
        d.code = some code ∧ d.marks = marks) ↔
      ∃ phrases rest stop, tokens.Splits phrases rest ∧ tokens.EndsAt stop ∧
        Verdict stop rest code marks) ∧
    ((∀ token ∈ tokens, token.span.start ≤ token.span.stop) →
      ∀ fault, tokens.build = .error fault →
        ∀ label ∈ fault.diagnostic.labels, label.span.start ≤ label.span.stop) := by
  refine ⟨fun code marks => ⟨?refused, ?verdict⟩, ?ordered⟩
  case refused =>
    rintro ⟨fault, d, hbuild, hfailure, hcode, rfl⟩
    obtain rfl : fault.diagnostic = d := by simpa [Fault.failure] using hfailure ""
    obtain rfl : fault.code = code := Option.some.inj hcode
    obtain ⟨phrases, rest, hsplits, hverdict⟩ := exists_verdict_of_build hbuild
    exact ⟨phrases, rest, tokens.stop, hsplits, endsAt_iff.2 rfl, hverdict⟩
  case verdict =>
    rintro ⟨phrases, rest, stop, hsplits, hstop, hverdict⟩
    obtain rfl := endsAt_iff.1 hstop
    obtain ⟨s, hs, hcode, hmarks⟩ := constructs_of_verdict hverdict
    have hconstructs := constructs_append_error hsplits.takes hs
    rw [← hsplits.eq_append] at hconstructs
    exact ⟨_, _, build_eq_error_iff.2 ⟨s, hconstructs, rfl⟩, fun _ => rfl,
      congrArg some hcode, hmarks⟩
  case ordered =>
    intro hordered fault hbuild label hlabel
    obtain ⟨phrases, rest, hsplits, hverdict⟩ := exists_verdict_of_build hbuild
    refine hverdict.ordered (fun token htoken => hordered token ?_) (label.span, label.isPrimary)
      (List.mem_map_of_mem hlabel)
    rw [hsplits.eq_append]
    exact List.mem_append_right _ htoken

/-- An estimate whose right-hand side is missing is marked up to the end of the last token, here the
end marker. A stream without an end marker is marked behind its last token, the empty one at 0. -/
theorem build_eq_error_iff_verdict_incomplete :
    (∃ fault d, build [⟨.tag .newline, ⟨0, 1⟩⟩, ⟨.tag .estimate, ⟨1, 4⟩⟩, ⟨.operand "x", ⟨1, 2⟩⟩,
        ⟨.eof, ⟨9, 9⟩⟩] = .error fault ∧
      (∀ source, fault.failure source = .source [d] source) ∧
      d.code = some .incompleteInput ∧ d.marks = [(⟨1, 9⟩, true)]) ∧
    (∃ fault d, build [⟨.tag .newline, ⟨0, 1⟩⟩] = .error fault ∧
      (∀ source, fault.failure source = .source [d] source) ∧
      d.code = some .incompleteInput ∧ d.marks = [(⟨1, 1⟩, true)]) ∧
    (∃ fault d, build [] = .error fault ∧
      (∀ source, fault.failure source = .source [d] source) ∧
      d.code = some .incompleteInput ∧ d.marks = [(⟨0, 0⟩, true)]) ∧
    ∀ fault, build [⟨.tag .newline, ⟨0, 1⟩⟩, ⟨.tag .estimate, ⟨1, 4⟩⟩, ⟨.operand "x", ⟨1, 2⟩⟩,
        ⟨.eof, ⟨9, 9⟩⟩] = .error fault →
      ∀ label ∈ fault.diagnostic.labels, label.span.start ≤ label.span.stop := by
  have htakes : ∀ phrase ∈ [Phrase.mk ⟨.newline, ⟨0, 1⟩⟩ []],
      phrase.tag.value.Takes phrase.texts := by
    rw [List.forall_mem_singleton]
    exact ⟨rfl, by rintro _ _ ⟨⟩⟩
  have hbegun : Tag.estimate.Begun ["x"] := ⟨by decide, by rintro _ _ ⟨⟩⟩
  have hestimate : Verdict 9 ((Phrase.mk ⟨.estimate, ⟨1, 4⟩⟩ [⟨"x", ⟨1, 2⟩⟩]).tokens ++
      [⟨.eof, ⟨9, 9⟩⟩]) .incompleteInput [(⟨1, 9⟩, true)] :=
    .incomplete hbegun (by decide) (by simp)
  have hendless (stop : Nat) : Verdict stop [] .incompleteInput [(⟨stop, stop⟩, true)] := .endless
  refine ⟨?estimate, ?newline, ?empty, ?ordered⟩
  case estimate =>
    exact ((build_eq_error_iff_verdict _).1 _ _).2
      ⟨_, _, 9, hestimate.splits htakes, .inr ⟨[_, _, _], _, rfl, rfl⟩, hestimate⟩
  case newline =>
    exact ((build_eq_error_iff_verdict _).1 _ _).2
      ⟨_, _, 1, (hendless 1).splits htakes, .inr ⟨[], _, rfl, rfl⟩, hendless 1⟩
  case empty =>
    exact ((build_eq_error_iff_verdict _).1 _ _).2
      ⟨[], _, 0, (hendless 0).splits (List.forall_mem_nil _), .inl ⟨rfl, rfl⟩, hendless 0⟩
  case ordered =>
    exact (build_eq_error_iff_verdict _).2 (by decide)

end Stream

end Jawn
