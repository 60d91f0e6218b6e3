import BlogSite.Calendar.Moment

/-!
Days and moments as plain scalars write them: `2024-1-5`, `2024-01-05T10:20:30.5 +09:00`.
-/

namespace BlogSite.Yaml

open BlogSite.Calendar BlogSite.Text

/-- The numbers of a time of day; the offset is in minutes. -/
structure StampTime where
  hour : Nat
  minute : Nat
  second : Nat
  microsecond : Nat
  offset : Option Int

structure Stamp where
  year : Nat
  month : Nat
  day : Nat
  time : Option StampTime
  /-- Whether month and day both have two digits. -/
  full : Bool

namespace Stamp

/-- Between `least` and `most` ASCII digits, as many as there are. -/
def digits? (least most : Nat) (s : List Char) : Option (List Nat × List Char) :=
  let run := (s.take most).takeWhile isAsciiDigit
  if run.length < least then none
  else some (run.filterMap digitValue?, s.drop run.length)

def number? (least most : Nat) (s : List Char) : Option (Nat × List Char) :=
  (digits? least most s).map fun (ds, r) => (ofDigits 10 ds, r)

def char? (c : Char) : List Char → Option (List Char)
  | d :: r => if d = c then some r else none
  | [] => none

def isSpace (c : Char) : Bool := c == ' ' || c == '\t'

/-- The first six digits of a fraction of a second, as microseconds. -/
def microseconds (ds : List Nat) : Nat :=
  ofDigits 10 ((ds ++ List.replicate 6 0).take 6)

/-- An offset that fills the rest of the text: `Z`, or a sign with hours and maybe minutes. -/
def offset? (s : List Char) : Option (Option Int) :=
  match s.dropWhile isSpace with
  | [] => if s.isEmpty then some none else none
  | ['Z'] => some (some 0)
  | c :: r =>
    if c = '+' || c = '-' then do
      let (h, r) ← number? 1 2 r
      let m ← match r with
        | [] => some 0
        | ':' :: r => do
          let (m, r) ← number? 2 2 r
          if r.isEmpty then some m else none
        | _ => none
      let minutes : Int := h * 60 + m
      some (some (if c = '-' then -minutes else minutes))
    else none

def time? (s : List Char) : Option StampTime := do
  let s ← match s with
    | 'T' :: r | 't' :: r => some r
    | c :: r => if isSpace c then some (r.dropWhile isSpace) else none
    | [] => none
  let (hour, s) ← number? 1 2 s
  let (minute, s) ← number? 2 2 (← char? ':' s)
  let (second, s) ← number? 2 2 (← char? ':' s)
  let (fraction, s) := match s with
    | '.' :: r => (r.takeWhile isAsciiDigit, r.dropWhile isAsciiDigit)
    | s => ([], s)
  some ⟨hour, minute, second, microseconds (fraction.filterMap digitValue?), ← offset? s⟩

def parse? (s : List Char) : Option Stamp := do
  let (year, s) ← number? 4 4 s
  let (month, s) ← digits? 1 2 (← char? '-' s)
  let (day, s) ← digits? 1 2 (← char? '-' s)
  let full := month.length == 2 && day.length == 2
  let time ← if s.isEmpty then some none else (time? s).map some
  some ⟨year, ofDigits 10 month, ofDigits 10 day, time, full⟩

/-- The day of a stamp, if the calendar has it. -/
def date? (s : Stamp) : Option Date := Date.of? s.year s.month s.day

end Stamp

end BlogSite.Yaml
