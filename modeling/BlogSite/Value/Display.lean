import BlogSite.Decimal.Layout
import BlogSite.Text.Quoted
import BlogSite.Text.Lines
import BlogSite.Value.Basic

/-!
Values as text. `display` shows a value by itself, `inspect` as a part of another: they differ on
texts, days and moments. `text` is what a page shows of an optional field.
-/

namespace BlogSite.Value

open BlogSite.Calendar BlogSite.Text

/-- Numbers from 0.0001 to below 10^16 are written positionally. -/
def floatLayout : Decimal.Layout := ⟨-4, 15, 2⟩

def floatText (x : Float) : List Char :=
  let bits := x.toBits.toNat
  let minus : List Char := if Nat.pow 2 63 ≤ bits then ['-'] else []
  if x.isNaN then "nan".toList
  else if x.isInf then minus ++ "inf".toList
  else if x == 0.0 then minus ++ "0.0".toList
  else minus ++ floatLayout.render (Decimal.Binary.ofBits (bits % Nat.pow 2 63)).shortest

def intText (n : Int) : List Char :=
  (if n < 0 then ['-'] else []) ++ Nat.toDigits 10 n.natAbs

def boolText (b : Bool) : List Char := if b then "True".toList else "False".toList

/-- A call: a name with arguments. -/
def callText (name : String) (args : List (List Char)) : List Char :=
  name.toList ++ '(' :: joinWith ", ".toList args ++ [')']

def dateText (d : Date) : List Char :=
  callText "datetime.date" ([d.year, d.month, d.day].map (Nat.toDigits 10))

/-- A span of days and seconds; the days carry the sign. -/
def offsetText (minutes : Int) : List Char :=
  let seconds := minutes * 60
  let days := seconds / 86400
  let rest := seconds % 86400
  let part := fun (name : String) (n : Int) =>
    if n = 0 then [] else [name.toList ++ '=' :: intText n]
  if minutes = 0 then "datetime.timezone.utc".toList
  else callText "datetime.timezone"
    [callText "datetime.timedelta" (part "days" days ++ part "seconds" rest)]

/-- Seconds and microseconds are left out when only zeros would follow. -/
def momentText (m : Moment) : List Char :=
  let d := m.date
  let always := [d.year, d.month, d.day, m.hour, m.minute]
  let rest :=
    if m.microsecond != 0 then [m.second, m.microsecond]
    else if m.second != 0 then [m.second] else []
  let zone := match m.offset with
    | none => []
    | some o => ["tzinfo=".toList ++ offsetText o]
  callText "datetime.datetime" ((always ++ rest).map (Nat.toDigits 10) ++ zone)

mutual

/-- A value as it is shown inside another. -/
def inspect : Value → List Char
  | .null => "None".toList
  | .bool b => boolText b
  | .int n => intText n
  | .float x => floatText x
  | .str s => quoted s.toList
  | .bytes bs => quotedBytes bs
  | .date d => dateText d
  | .moment m => momentText m
  | .list items => '[' :: joinWith ", ".toList (inspectAll items) ++ [']']
  | .tuple items =>
    match inspectAll items with
    | [one] => '(' :: one ++ [',', ')']
    | many => '(' :: joinWith ", ".toList many ++ [')']
  | .map entries => '\x7b' :: joinWith ", ".toList (inspectEntries entries) ++ ['\x7d']
  | .set items =>
    match inspectAll items with
    | [] => "set()".toList
    | many => '\x7b' :: joinWith ", ".toList many ++ ['\x7d']

def inspectAll : List Value → List (List Char)
  | [] => []
  | v :: vs => inspect v :: inspectAll vs

def inspectEntries : List (Value × Value) → List (List Char)
  | [] => []
  | (k, v) :: es => (inspect k ++ ':' :: ' ' :: inspect v) :: inspectEntries es

end

/-- A value shown by itself. -/
def display : Value → List Char
  | .str s => s.toList
  | .date d => d.iso
  | .moment m => m.iso ' '
  | v => inspect v

/-- A value shown on a page, where nothing is shown as nothing. -/
def text : Value → List Char
  | .null => []
  | v => display v

end BlogSite.Value
