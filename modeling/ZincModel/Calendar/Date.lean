/-!
# Dates

Dates of the Gregorian calendar from the year 1 to 9999, in their numerical form `2001-12-14`.
-/

namespace ZincModel

/-- What is wrong with the parts of a date or time. -/
inductive CalendarFault where
  | year (year : Nat)
  | month
  | day
  | hour
  | minute
  | second
  | offset (seconds : Int)
  deriving DecidableEq, Repr

/-- A day of the calendar. -/
structure Date where
  year : Nat
  month : Nat
  day : Nat
  deriving DecidableEq, Repr

namespace Date

/-- The year has a 29th of February. -/
def isLeap (year : Nat) : Bool := year % 4 == 0 && (year % 100 != 0 || year % 400 == 0)

/-- How many days a month has. -/
def monthLength (year month : Nat) : Nat :=
  if month = 2 then (if isLeap year then 29 else 28)
  else if month = 4 ∨ month = 6 ∨ month = 9 ∨ month = 11 then 30
  else 31

/-- The date with the given parts, if there is one. -/
def make (year month day : Nat) : Except CalendarFault Date :=
  if year < 1 ∨ 9999 < year then .error (.year year)
  else if month < 1 ∨ 12 < month then .error .month
  else if day < 1 ∨ monthLength year month < day then .error .day
  else .ok ⟨year, month, day⟩

/-- The number of days from the first day of the calendar to this one. -/
def ordinal (d : Date) : Nat :=
  let y := d.year - 1
  let months := (List.range (d.month - 1)).foldl (fun days m => days + monthLength d.year (m + 1)) 0
  y * 365 + y / 4 - y / 100 + y / 400 + months + d.day

end Date

/-- The last `width` decimal digits of `n`. -/
def paddedNumeral : Nat → Nat → List Char
  | 0, _ => []
  | width + 1, n => paddedNumeral width (n / 10) ++ [Char.ofNat (48 + n % 10)]

/-- The date in its numerical form. -/
def Date.iso (d : Date) : List Char :=
  paddedNumeral 4 d.year ++ '-' :: paddedNumeral 2 d.month ++ '-' :: paddedNumeral 2 d.day

end ZincModel
