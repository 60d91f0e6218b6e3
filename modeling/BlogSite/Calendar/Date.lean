import BlogSite.Text.Digit
import BlogSite.Text.Lines

/-!
Days of the Gregorian calendar from 0001-01-01 to 9999-12-31, their numbering, and the texts that
name one. A `Date` is a real day of the calendar by its type.
-/

namespace BlogSite.Calendar

open BlogSite.Text

def isLeap (year : Nat) : Bool :=
  year % 4 == 0 && (year % 100 != 0 || year % 400 == 0)

/-- The number of days of a month. -/
def daysIn (year month : Nat) : Nat :=
  if month = 2 then if isLeap year then 29 else 28
  else if month = 4 || month = 6 || month = 9 || month = 11 then 30
  else 31

structure Date where
  year : Nat
  month : Nat
  day : Nat
  year_pos : 1 ≤ year := by decide
  year_le : year ≤ 9999 := by decide
  month_pos : 1 ≤ month := by decide
  month_le : month ≤ 12 := by decide
  day_pos : 1 ≤ day := by decide
  day_le : day ≤ daysIn year month := by decide
deriving DecidableEq

namespace Date

/-- The day with these numbers, if the calendar has it. -/
def of? (year month day : Nat) : Option Date :=
  if h : (1 ≤ year ∧ year ≤ 9999) ∧ (1 ≤ month ∧ month ≤ 12) ∧ 1 ≤ day ∧ day ≤ daysIn year month then
    some ⟨year, month, day, h.1.1, h.1.2, h.2.1.1, h.2.1.2, h.2.2.1, h.2.2.2⟩
  else none

theorem of?_eq_some {d : Date} : of? d.year d.month d.day = some d := by
  simp [of?, d.year_pos, d.year_le, d.month_pos, d.month_le, d.day_pos, d.day_le]

/-- The number of days in the years before one. -/
def daysBeforeYear (year : Nat) : Nat :=
  let y := year - 1
  365 * y + y / 4 - y / 100 + y / 400

/-- The number of days of a year in the months before one. -/
def daysBeforeMonth (year month : Nat) : Nat :=
  ((List.range' 1 (month - 1)).map (daysIn year)).foldl (· + ·) 0

/-- The number of a day, counted from 1 for the first of January of the year 1. -/
def ordinal (d : Date) : Nat :=
  daysBeforeYear d.year + daysBeforeMonth d.year d.month + d.day

/-- Year, month and day in four, two and two digits. -/
def iso (d : Date) : List Char :=
  padded 4 d.year ++ '-' :: padded 2 d.month ++ '-' :: padded 2 d.day

/-- A year is written with four digits of any script. -/
def yearOf? (s : List Char) : Option Nat :=
  match s.map digitValue? with
  | [some a, some b, some c, some d] => some (ofDigits 10 [a, b, c, d])
  | _ => none

/-- A month is written with one ASCII digit or with two. -/
def monthOf? : List Char → Option Nat
  | ['1', '0'] => some 10
  | ['1', '1'] => some 11
  | ['1', '2'] => some 12
  | ['0', c] => if '1' ≤ c && c ≤ '9' then digitValue? c else none
  | [c] => if '1' ≤ c && c ≤ '9' then digitValue? c else none
  | _ => none

/-- A day of a month is written with one ASCII digit, with a space before it if you like, or with
two digits. After a one or a two the second digit may be of any script. -/
def dayOf? : List Char → Option Nat
  | ['3', '0'] => some 30
  | ['3', '1'] => some 31
  | ['1', c] => (digitValue? c).map (10 + ·)
  | ['2', c] => (digitValue? c).map (20 + ·)
  | ['0', c] => if '1' ≤ c && c ≤ '9' then digitValue? c else none
  | [' ', c] => if '1' ≤ c && c ≤ '9' then digitValue? c else none
  | [c] => if '1' ≤ c && c ≤ '9' then digitValue? c else none
  | _ => none

/-- The day that a text of the form year, hyphen, month, hyphen, day names. -/
def parse? (s : List Char) : Option Date :=
  match splitOn '-' s with
  | [y, m, d] => do of? (← yearOf? y) (← monthOf? m) (← dayOf? d)
  | _ => none

/-- The length of the window in which an update counts as recent. -/
def recentDays : Nat := 7

/-- Whether a day lies after `today` less the window. There is no such limit in the first days of
the calendar: none. -/
def isRecent? (d today : Date) : Option Bool :=
  if today.ordinal ≤ recentDays then none
  else some (today.ordinal - recentDays < d.ordinal)

end Date

end BlogSite.Calendar
