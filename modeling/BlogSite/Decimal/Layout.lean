import BlogSite.Decimal.Shortest
import BlogSite.Text.Digit

/-!
Decimals as text and text as decimals. A layout says which powers of ten are written with the point
at its place; all others are written with an exponent.
-/

namespace BlogSite.Decimal

open BlogSite.Text

/-- The powers of the first digit from `least` to `greatest` are written positionally; other
exponents carry a sign and at least `width` digits. -/
structure Layout where
  least : Int
  greatest : Int
  width : Nat

def digitChars (ds : List Nat) : List Char := ds.map fun d => Char.ofNat (48 + d)

/-- With the point at its place, and at least one digit on either side of it. -/
def Digits.positional (d : Digits) : List Char :=
  let cs := digitChars d.digits
  if 0 ≤ d.power then
    let whole := d.power.toNat + 1
    let left := cs.take whole ++ List.replicate (whole - cs.length) '0'
    let right := cs.drop whole
    left ++ '.' :: (if right.isEmpty then ['0'] else right)
  else '0' :: '.' :: List.replicate ((-d.power).toNat - 1) '0' ++ cs

def Digits.scientific (width : Nat) (d : Digits) : List Char :=
  let mantissa := match digitChars d.digits with
    | [] => ['0']
    | [c] => [c]
    | c :: cs => c :: '.' :: cs
  let exponent := padded width d.power.natAbs
  mantissa ++ 'e' :: (if d.power < 0 then '-' else '+') :: exponent

def Layout.render (l : Layout) (d : Digits) : List Char :=
  if l.least ≤ d.power && d.power ≤ l.greatest then d.positional else d.scientific l.width

/-- The number `± digits * 10 ^ exponent`, rounded to double precision. Powers beyond the range of
double precision are cut to zero or infinity before they are computed. -/
def toFloat (negative : Bool) (digits : Nat) (exponent : Int) : Float :=
  let length : Int := (Nat.toDigits 10 digits).length
  let x : Float :=
    if digits = 0 then 0.0
    else if 400 < length + exponent then 1.0 / 0.0
    else if length + exponent < -400 then 0.0
    else if exponent < 0 then Float.ofScientific digits true (-exponent).toNat
    else Float.ofScientific digits false exponent.toNat
  if negative then -x else x

/-- A run of decimal digits at the head of a text, of any script, and what follows it. -/
def digitRun : List Char → List Nat × List Char
  | [] => ([], [])
  | c :: cs =>
    match digitValue? c with
    | some d => let (ds, r) := digitRun cs; (d :: ds, r)
    | none => ([], c :: cs)

/-- A sign at the head of a text, `true` for a minus, and what follows it. -/
def sign : List Char → Bool × List Char
  | '-' :: cs => (true, cs)
  | '+' :: cs => (false, cs)
  | cs => (false, cs)

/-- An exponent that fills the rest of the text, with an optional sign; no exponent is zero. -/
def exponent? : List Char → Option Int
  | [] => some 0
  | c :: cs =>
    if c = 'e' || c = 'E' then
      let (negative, r) := sign cs
      match digitRun r with
      | (d :: ds, []) =>
        let n : Int := ofDigits 10 (d :: ds)
        some (if negative then -n else n)
      | _ => none
    else none

/-- Reads a floating point number that fills the text: digits with a point among, before or after
them and an exponent, or one of the names of infinity and of what is not a number, in any case. -/
def readFloat? (s : List Char) : Option Float :=
  let (negative, r) := sign s
  let name := String.ofList (r.map Char.toLower)
  if name = "inf" || name = "infinity" then
    some (if negative then -(1.0 / 0.0) else 1.0 / 0.0)
  else if name = "nan" then some (0.0 / 0.0)
  else
    let (whole, r) := digitRun r
    let (part, r) := match r with
      | '.' :: r => digitRun r
      | r => ([], r)
    if whole.isEmpty && part.isEmpty then none
    else (exponent? r).map fun e =>
      toFloat negative (ofDigits 10 (whole ++ part)) (e - (part.length : Nat))

/-- Reads a whole number that fills the text. -/
def readInt? (s : List Char) : Option Int :=
  let (negative, r) := sign s
  match digitRun r with
  | (d :: ds, []) =>
    let n : Int := ofDigits 10 (d :: ds)
    some (if negative then -n else n)
  | _ => none

end BlogSite.Decimal
