import BlogSite.Calendar.Date

/-!
A day with a time of day, with or without an offset from universal time.
-/

namespace BlogSite.Calendar

open BlogSite.Text

/-- The offset is in minutes and shorter than a day. -/
structure Moment where
  date : Date
  hour : Nat
  minute : Nat
  second : Nat
  microsecond : Nat := 0
  offset : Option Int := none
deriving DecidableEq

namespace Moment

/-- A moment whose parts are within their bounds. -/
def of? (date : Date) (hour minute second microsecond : Nat) (offset : Option Int) :
    Option Moment :=
  if hour < 24 && minute < 60 && second < 60 && microsecond < 1000000 &&
      (offset.all fun o => o.natAbs < 1440) then
    some ⟨date, hour, minute, second, microsecond, offset⟩
  else none

/-- An offset as hours and minutes with a sign. -/
def offsetText (o : Int) : List Char :=
  (if o < 0 then '-' else '+') :: padded 2 (o.natAbs / 60) ++ ':' :: padded 2 (o.natAbs % 60)

/-- Date and time with a separator; the fraction of a second is left out when it is zero. -/
def iso (sep : Char) (m : Moment) : List Char :=
  m.date.iso ++ sep :: padded 2 m.hour ++ ':' :: padded 2 m.minute ++ ':' :: padded 2 m.second ++
    (if m.microsecond = 0 then [] else '.' :: padded 6 m.microsecond) ++
    (m.offset.map offsetText).getD []

/-- Microseconds since the first moment of the calendar, in universal time when there is an
offset. -/
def instant (m : Moment) : Int :=
  (((m.date.ordinal : Int) * 24 + m.hour) * 60 + m.minute - m.offset.getD 0) * 60000000 +
    m.second * 1000000 + m.microsecond

/-- Moments agree when both have an offset or neither has, and they fall together. -/
def agrees (a b : Moment) : Bool :=
  a.offset.isSome == b.offset.isSome && a.instant == b.instant

end Moment

end BlogSite.Calendar
