import Jawn.Toml.Number

/-!
# Dates and times of TOML

A moment is a date, a time of day, or a date and a time with a letter or a blank between them. Only
the last may end with an offset. Seconds may be left out, and only seconds have a fraction.
-/

namespace Jawn.Toml

/-- The number of two digits at the front, and what follows it. -/
def twoDigits? : List Char → Option (Nat × List Char)
  | a :: b :: rest =>
    if a.isDigit && b.isDigit then some (digitsValue 10 [a, b], rest) else none
  | _ => none

/-- What follows a character at the front. -/
def after? (c : Char) : List Char → Option (List Char)
  | d :: rest => if d == c then some rest else none
  | [] => none

def isLeapYear (year : Nat) : Bool :=
  year % 4 == 0 && (year % 100 != 0 || year % 400 == 0)

def daysInMonth (year month : Nat) : Nat :=
  if month == 2 then if isLeapYear year then 29 else 28
  else if month == 4 || month == 6 || month == 9 || month == 11 then 30
  else 31

/-- What follows a date at the front. -/
def afterDate? (s : List Char) : Option (List Char) := do
  let (century, s) ← twoDigits? s
  let (yearOfCentury, s) ← twoDigits? s
  let (month, s) ← twoDigits? (← after? '-' s)
  let (day, s) ← twoDigits? (← after? '-' s)
  let days := daysInMonth (100 * century + yearOfCentury) month
  if 1 ≤ month ∧ month ≤ 12 ∧ 1 ≤ day ∧ day ≤ days then some s else none

/-- What follows an hour and a minute at the front. -/
def afterMinute? (s : List Char) : Option (List Char) := do
  let (hour, s) ← twoDigits? s
  let (minute, s) ← twoDigits? (← after? ':' s)
  if hour ≤ 23 ∧ minute ≤ 59 then some s else none

/-- What follows a second and its fraction at the front. A leap second is the sixtieth. -/
def afterSecond? (s : List Char) : Option (List Char) := do
  let (second, s) ← twoDigits? s
  if second ≤ 60 then
    match s with
    | '.' :: d :: rest => if d.isDigit then some (rest.dropWhile Char.isDigit) else none
    | s => some s
  else none

/-- What follows a time of day at the front. -/
def afterTime? (s : List Char) : Option (List Char) := do
  match ← afterMinute? s with
  | ':' :: rest => afterSecond? rest
  | rest => some rest

/-- Whether a text is an offset, or nothing. -/
def isOffset : List Char → Bool
  | [] => true
  | [c] => c == 'Z' || c == 'z'
  | c :: rest => (c == '+' || c == '-') && afterMinute? rest == some []

/-- Whether a character may stand between a date and a time. -/
def isDateEnd (c : Char) : Bool :=
  c == 'T' || c == 't' || c == ' '

/-- Whether a text is a date, a time or both. -/
def isMoment (s : List Char) : Bool :=
  match afterDate? s with
  | some [] => true
  | some (c :: rest) => isDateEnd c && ((afterTime? rest).map isOffset).getD false
  | none => afterTime? s == some []

end Jawn.Toml
