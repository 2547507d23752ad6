/-!
# Positions in a text

A text is a list of characters. Offsets count bytes of its UTF-8 form, rows and columns count
characters from one. A position is a measure of the text before it: `Position.after` walks over
that text, and nothing else in the library counts bytes, rows or columns.
-/

namespace Jawn

/-- The number of bytes of a text in UTF-8. -/
def byteSize (text : List Char) : Nat :=
  text.foldr (fun c size => c.utf8Size + size) 0

@[simp] theorem byteSize_nil : byteSize [] = 0 := rfl

@[simp] theorem byteSize_cons (c : Char) (text : List Char) :
    byteSize (c :: text) = c.utf8Size + byteSize text := rfl

@[simp] theorem byteSize_append (a b : List Char) :
    byteSize (a ++ b) = byteSize a + byteSize b := by
  induction a with
  | nil => simp
  | cons c a ih => simp [ih, Nat.add_assoc]

/-- A place between two characters of a text. -/
structure Position where
  offset : Nat := 0
  row : Nat := 1
  column : Nat := 1
  deriving DecidableEq, Repr

namespace Position

/-- The position behind one more character; a line feed starts a new row. -/
def advance (p : Position) (c : Char) : Position :=
  if c = '\n' then ⟨p.offset + c.utf8Size, p.row + 1, 1⟩
  else ⟨p.offset + c.utf8Size, p.row, p.column + 1⟩

/-- The position behind a text that starts at `p`. -/
def after (p : Position) (text : List Char) : Position :=
  text.foldl advance p

@[simp] theorem after_nil (p : Position) : p.after [] = p := rfl

@[simp] theorem after_cons (p : Position) (c : Char) (text : List Char) :
    p.after (c :: text) = (p.advance c).after text := rfl

@[simp] theorem after_append (p : Position) (a b : List Char) :
    p.after (a ++ b) = (p.after a).after b := by
  simp [after]

end Position

end Jawn
