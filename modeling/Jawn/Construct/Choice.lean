/-!
# Operands from a closed set

Quotes, signs of magnitude and directions of a shift: each has a written form, and only that form
is read back.
-/

namespace Jawn

/-- The quote around a string. -/
inductive Quote where
  | double
  | single
  | backtick
  deriving DecidableEq, Repr

namespace Quote

def char : Quote → Char
  | double => '"'
  | single => '\''
  | backtick => '\x60'

def display (q : Quote) : String :=
  String.ofList [q.char]

def ofString? (text : String) : Option Quote :=
  if text = "\"" then some double
  else if text = "'" then some single
  else if text = "`" then some backtick
  else none

/-- What is wrong with a text that is no quote. -/
def invalid (text : String) : String :=
  s!"invalid string delimiter `{text}`"

end Quote

/-- A comparison of magnitudes. -/
inductive Magnitude where
  | muchGreater
  | muchLess
  deriving DecidableEq, Repr

namespace Magnitude

def display : Magnitude → String
  | muchGreater => ">>"
  | muchLess => "<<"

def ofString? (text : String) : Option Magnitude :=
  if text = ">>" then some muchGreater
  else if text = "<<" then some muchLess
  else none

/-- What is wrong with a text that is no sign of magnitude. -/
def invalid (text : String) : String :=
  s!"invalid magnitude comparison `{text}`"

end Magnitude

/-- The direction of a bit shift. -/
inductive Shift where
  | left
  | right
  deriving DecidableEq, Repr

namespace Shift

def display : Shift → String
  | left => "shl"
  | right => "shr"

/-- The operator of the shift in JavaScript. -/
def operator : Shift → String
  | left => "<<"
  | right => ">>"

def ofString? (text : String) : Option Shift :=
  if text = "shl" then some left
  else if text = "shr" then some right
  else none

/-- What is wrong with a text that is no direction. -/
def invalid (text : String) : String :=
  s!"invalid shift direction `{text}`"

end Shift

end Jawn
