/-!
# Numbers of TOML

Integers have a decimal, hexadecimal, octal or binary form and fit in 128 bits. Floats are kept as
they are written, and are refused if they are too large for a double.
-/

namespace Jawn.Toml

def hexValue? (c : Char) : Option Nat :=
  if c.isDigit then some (c.toNat - '0'.toNat)
  else if 'a' ≤ c ∧ c ≤ 'f' then some (c.toNat - 'a'.toNat + 10)
  else if 'A' ≤ c ∧ c ≤ 'F' then some (c.toNat - 'A'.toNat + 10)
  else none

/-- The number that digits of a base stand for. Underscores between them count for nothing. -/
def digitsValue (base : Nat) (s : List Char) : Nat :=
  (s.filterMap hexValue?).foldl (fun n d => base * n + d) 0

/-- Whether a text consists of digits, with single underscores between them. -/
def isGrouped (digit : Char → Bool) : List Char → Bool
  | [] => false
  | [c] => digit c
  | c :: '_' :: rest => digit c && isGrouped digit rest
  | c :: rest => digit c && isGrouped digit rest

/-- Whether a text is a decimal number without needless zeros in front. -/
def isDecimal (s : List Char) : Bool :=
  isGrouped Char.isDigit s && (s.head? != some '0' || s.length == 1)

/-- A text without a sign in front, and whether the sign is a minus. -/
def dropSign : List Char → Bool × List Char
  | '-' :: rest => (true, rest)
  | '+' :: rest => (false, rest)
  | s => (false, s)

/-- The number that decimal digits behind a sign stand for. -/
def signedValue (negative : Bool) (digits : List Char) : Int :=
  if negative then -digitsValue 10 digits else digitsValue 10 digits

/-- The number that a text stands for, however large. -/
def wholeNumber? (s : List Char) : Option Int :=
  match s with
  | '0' :: 'x' :: digits =>
    if isGrouped (fun c => (hexValue? c).isSome) digits then some (digitsValue 16 digits) else none
  | '0' :: 'o' :: digits =>
    if isGrouped (fun c => '0' ≤ c && c ≤ '7') digits then some (digitsValue 8 digits) else none
  | '0' :: 'b' :: digits =>
    if isGrouped (fun c => c == '0' || c == '1') digits then some (digitsValue 2 digits) else none
  | _ =>
    let (negative, digits) := dropSign s
    if isDecimal digits then some (signedValue negative digits) else none

/-- An integer, which fits in 128 bits with or without a sign. -/
def integer? (s : List Char) : Option Int :=
  (wholeNumber? s).filter fun n => -Int.pow 2 127 ≤ n && n < Int.pow 2 128

def isDigitOrGap (c : Char) : Bool :=
  c.isDigit || c == '_'

/-- The power of ten at the end of a float. -/
def exponent? : List Char → Option Int
  | [] => some 0
  | c :: rest =>
    let (negative, digits) := dropSign rest
    if (c == 'e' || c == 'E') && isGrouped Char.isDigit digits then
      some (signedValue negative digits)
    else none

/-- The least number that a double does not hold: halfway from the largest double to the next power
of two. -/
def doubleLimit : Nat :=
  Nat.pow 2 1024 - Nat.pow 2 970

/-- Whether digits times a power of ten are below the limit of a double. A number with 308 digits
before its point is below it, and a number with 310 is not. -/
def isBelowLimit (digits : List Char) (exponent : Int) : Bool :=
  let digits := (digits.filter Char.isDigit).dropWhile (· == '0')
  let size := digits.length + exponent
  digits.isEmpty || size ≤ 308 ||
    (size == 309 &&
      digitsValue 10 digits * Nat.pow 10 exponent.toNat <
        doubleLimit * Nat.pow 10 (-exponent).toNat)

/-- Whether the parts of a float stand for a number that a double can hold. -/
def fitsDouble (whole fraction exponent : List Char) : Bool :=
  match exponent? exponent with
  | none => false
  | some e => isBelowLimit (whole ++ fraction) (e - (fraction.filter Char.isDigit).length)

/-- Whether a text is a number with a fraction, an exponent or both. -/
def isFloat (s : List Char) : Bool :=
  let s := (dropSign s).2
  if s == ['i', 'n', 'f'] || s == ['n', 'a', 'n'] then true
  else
    let whole := s.takeWhile isDigitOrGap
    isDecimal whole &&
      match s.dropWhile isDigitOrGap with
      | '.' :: rest =>
        let fraction := rest.takeWhile isDigitOrGap
        isGrouped Char.isDigit fraction && fitsDouble whole fraction (rest.dropWhile isDigitOrGap)
      | [] => false
      | rest => fitsDouble whole [] rest

end Jawn.Toml
