import Jawn.Grammar
import Jawn.Proofs.Classes
import Mathlib.Data.List.Forall2

/-!
# What a form was read as

Reading a form gives one segment for each part. `Form.Reads` says what these segments are: each has
the role of its part and a text in the part's language.

* `Form.reads_of_read`: what is read is such a list of segments, and it stands at the front of the
  text;
* `Form.matches_of_reads`: the text of the segments is in the language of the form;
* `Form.forall_reads_word` and its like: to show something of all segments of a form, show it of
  the texts of its operands, one part after the other.
-/

namespace Jawn

/-- A part was read as a segment. -/
def Part.Reads (part : Part) (segment : Segment) : Prop :=
  segment.role = part.role ∧ part.pattern.Matches segment.text

/-- The sign of a deferred construct; other constructs have none. -/
def mark (deferred : Bool) : String :=
  if deferred then "#" else ""

namespace Form

/-- A form was read as these segments, one for each part. -/
def Reads (form : Form) (segments : List Segment) : Prop :=
  List.Forall₂ Part.Reads form segments

/-- The parts of a form in a row, as one pattern. -/
def pattern (form : Form) : Pattern :=
  form.foldr (fun part rest => .seq part.pattern rest) (.text [])

theorem read_cons {part : Part} {form : Form} {s : List Char} :
    Form.read (part :: form) s = (part.pattern.ends s).findSome? fun rest =>
      (Form.read form rest).map (⟨part.role, s.take (s.length - rest.length)⟩ :: ·) := rfl

theorem take_length_sub (t rest : List Char) :
    (t ++ rest).take ((t ++ rest).length - rest.length) = t := by
  rw [List.length_append, Nat.add_sub_cancel, List.take_left]

/-- What is read of a text are segments of the form, and they stand at its front. -/
theorem reads_of_read {form : Form} {s : List Char} {segments : List Segment}
    (h : Form.read form s = some segments) :
    form.Reads segments ∧ ∃ rest, s = segments.flatMap Segment.text ++ rest := by
  induction form generalizing s segments with
  | nil =>
    obtain rfl : [] = segments := by simpa [Form.read] using h
    exact ⟨.nil, s, rfl⟩
  | cons part form ih =>
    rw [read_cons] at h
    obtain ⟨rest, hrest, hread⟩ := List.exists_of_findSome?_eq_some h
    obtain ⟨t, rfl, ht⟩ := Pattern.mem_ends.1 hrest
    obtain ⟨segments', hread', rfl⟩ := Option.map_eq_some_iff.1 hread
    obtain ⟨hreads, left, rfl⟩ := ih hread'
    refine ⟨.cons ⟨rfl, ?_⟩ hreads, left, ?_⟩
    · rw [take_length_sub]
      exact ht
    · rw [take_length_sub, List.flatMap_cons, List.append_assoc]

theorem matches_of_reads {form : Form} {segments : List Segment} (h : form.Reads segments) :
    form.pattern.Matches (segments.flatMap Segment.text) := by
  induction h with
  | nil => exact .text []
  | cons hpart _ ih => exact .seq hpart.2 ih

theorem exists_reads_of_matches {form : Form} {s : List Char} (h : form.pattern.Matches s) :
    ∃ segments, form.Reads segments ∧ segments.flatMap Segment.text = s := by
  induction form generalizing s with
  | nil => exact ⟨[], .nil, (Pattern.matches_text.1 h).symm⟩
  | cons part form ih =>
    obtain ⟨t, rest, ht, hrest, rfl⟩ := Pattern.matches_seq.1 h
    obtain ⟨segments, hreads, rfl⟩ := ih hrest
    exact ⟨⟨part.role, t⟩ :: segments, .cons ⟨rfl, ht⟩ hreads, rfl⟩

/-! ## Taking a form apart

What holds of all segments that a form can be read as, from the front of the form to its end. -/

section

variable {form : Form} {P : List Segment → Prop}

theorem forall_reads_nil : (∀ segments, Form.Reads [] segments → P segments) ↔ P [] := by
  simp [Form.Reads]

theorem forall_reads_cons {part : Part} :
    (∀ segments, Form.Reads (part :: form) segments → P segments) ↔
      ∀ text : String, part.pattern.Accepts text →
        ∀ rest, form.Reads rest → P (⟨part.role, text.toList⟩ :: rest) := by
  constructor
  · intro h text htext rest hrest
    exact h _ (.cons ⟨rfl, htext⟩ hrest)
  · rintro h _ (_ | @⟨_, ⟨role, t⟩, _, rest, ⟨hrole, ht⟩, hrest⟩)
    obtain rfl : role = part.role := hrole
    have ht' : part.pattern.Accepts (String.ofList t) := by
      rw [Pattern.Accepts, String.toList_ofList]
      exact ht
    simpa using h _ ht' rest hrest

theorem forall_reads_operand {p : Pattern} :
    (∀ segments, Form.Reads (Grammar.operand p :: form) segments → P segments) ↔
      ∀ text : String, p.Accepts text →
        ∀ rest, form.Reads rest → P (⟨.operand, text.toList⟩ :: rest) :=
  forall_reads_cons

theorem forall_reads_fixed {p : Pattern} :
    (∀ segments, Form.Reads (Grammar.fixed p :: form) segments → P segments) ↔
      ∀ text : String, p.Accepts text →
        ∀ rest, form.Reads rest → P (⟨.fixed, text.toList⟩ :: rest) :=
  forall_reads_cons

theorem forall_reads_word {k : String} :
    (∀ segments, Form.Reads (Grammar.word k :: form) segments → P segments) ↔
      ∀ rest, form.Reads rest → P (⟨.fixed, k.toList⟩ :: rest) := by
  rw [forall_reads_cons]
  constructor
  · intro h
    exact h k (.text k.toList)
  · intro h text htext
    obtain rfl : text = k := String.toList_inj.1 (Pattern.matches_text.1 htext)
    exact h

/-- The marker is there or not. -/
theorem forall_reads_marker :
    (∀ segments, Form.Reads (Grammar.marker :: form) segments → P segments) ↔
      ∀ (deferred : Bool) rest, form.Reads rest → P (⟨.marker, (mark deferred).toList⟩ :: rest) := by
  rw [forall_reads_cons]
  constructor
  · intro h deferred
    refine h (mark deferred) (Pattern.matches_optional.2 ?_)
    cases deferred with
    | false => exact .inr rfl
    | true => exact .inl (.text ['#'])
  · intro h text htext
    rcases Pattern.matches_optional.1 htext with htext | htext
    · obtain rfl : text = mark true := String.toList_inj.1 (Pattern.matches_text.1 htext)
      exact h true
    · obtain rfl : text = mark false := String.toList_inj.1 htext
      exact h false

end

end Form

end Jawn
