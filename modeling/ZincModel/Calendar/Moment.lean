import ZincModel.Calendar.Date

/-!
# Points in time

A date with a time of day to the microsecond, and possibly the offset of its clock from universal time. Two
moments with offsets are ordered by the instant they denote, two without by what their clocks show, and a
moment with an offset cannot be compared with one without.
-/

namespace ZincModel

/-- A date and time of day; `offset` counts seconds east of universal time. -/
structure Moment where
  date : Date
  hour : Nat
  minute : Nat
  second : Nat
  microsecond : Nat
  offset : Option Int
  deriving DecidableEq, Repr

namespace Moment

/-- The moment with the given parts, if there is one. -/
def make (year month day hour minute second microsecond : Nat) (offset : Option Int) :
    Except CalendarFault Moment := do
  match offset with
  | some seconds => if 86400 ≤ seconds.natAbs then throw (.offset seconds)
  | none => pure ()
  let date ← Date.make year month day
  if 23 < hour then throw .hour
  if 59 < minute then throw .minute
  if 59 < second then throw .second
  return ⟨date, hour, minute, second, microsecond, offset⟩

/-- Microseconds on the clock since the start of the calendar. -/
def clock (m : Moment) : Int :=
  ((((m.date.ordinal * 24 + m.hour) * 60 + m.minute) * 60 + m.second) * 1000000 + m.microsecond : Nat)

/-- The order of two moments; `none` if only one of them has an offset. -/
def compare? (a b : Moment) : Option Ordering :=
  match a.offset, b.offset with
  | none, none => some (compare a.clock b.clock)
  | some x, some y => some (compare (a.clock - x * 1000000) (b.clock - y * 1000000))
  | _, _ => none

/-- An offset as `+hh:mm`, with seconds if there are any. -/
def offsetText (seconds : Int) : List Char :=
  let n := seconds.natAbs
  (if seconds < 0 then '-' else '+') :: paddedNumeral 2 (n / 3600) ++ ':' :: paddedNumeral 2 (n / 60 % 60) ++
    (if n % 60 = 0 then [] else ':' :: paddedNumeral 2 (n % 60))

/-- The moment in its numerical form, with `separator` between date and time. -/
def iso (separator : Char) (m : Moment) : List Char :=
  m.date.iso ++ separator :: paddedNumeral 2 m.hour ++ ':' :: paddedNumeral 2 m.minute ++
    ':' :: paddedNumeral 2 m.second ++
    (if m.microsecond = 0 then [] else '.' :: paddedNumeral 6 m.microsecond) ++
    (match m.offset with
     | none => []
     | some seconds => offsetText seconds)

end Moment

end ZincModel
