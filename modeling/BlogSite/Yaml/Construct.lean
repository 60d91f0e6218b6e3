import BlogSite.Decimal.Layout
import BlogSite.Text.Base64
import BlogSite.Text.Blank
import BlogSite.Value.Basic
import BlogSite.Yaml.Node

/-!
Values of tagged scalars. A tag may be given to any text, so every reading may fail.
-/

namespace BlogSite.Yaml.Construct

open BlogSite.Calendar BlogSite.Text

/-- The most digits that a decimal number may have. -/
def digitLimit : Nat := 4300

/-- The value of a digit of some base: a decimal digit of any script or an ASCII letter. -/
def digitOf? (base : Nat) (c : Char) : Option Nat :=
  let v := match digitValue? c with
    | some d => some d
    | none =>
      if 'a' ≤ c && c ≤ 'z' then some (c.toNat - 87)
      else if 'A' ≤ c && c ≤ 'Z' then some (c.toNat - 55)
      else none
  v.filter (· < base)

/-- The digits after the mark of a base, if that mark comes first. -/
def afterMark (base : Nat) (s : List Char) : List Char :=
  match s with
  | '0' :: m :: r =>
    if (base = 2 && (m = 'b' || m = 'B')) || (base = 8 && (m = 'o' || m = 'O')) ||
        (base = 16 && (m = 'x' || m = 'X')) then r else s
  | _ => s

/-- A whole number in a base: blanks around it, a sign and the mark of the base are allowed. -/
def wholeNumber (base : Nat) (s : List Char) : Except Fault Int :=
  let (negative, r) := Decimal.sign (trim s)
  match (afterMark base r).mapM (digitOf? base) with
  | none | some [] => .error .badValue
  | some ds =>
    if base = 10 && digitLimit < ds.length then .error .badValue
    else
      let n : Int := ofDigits base ds
      .ok (if negative then -n else n)

def floatNumber (s : List Char) : Except Fault Float :=
  match Decimal.readFloat? (trim s) with
  | some x => .ok x
  | none => .error .badValue

/-- The sign of a number and what follows it; there has to be something. -/
def signed (s : List Char) : Except Fault (Bool × List Char) :=
  if s.isEmpty then .error .tooShort else .ok (Decimal.sign s)

def startsWith (s : List Char) (a b : Char) : Bool := s.take 2 = [a, b]

/-- An integer: in base 10, 2, 16 or 8 by its first characters, or in base 60 with colons. -/
def int (s : List Char) : Except Fault Int := do
  let (negative, u) ← signed (s.filter (· != '_'))
  let n ←
    if u = ['0'] then .ok 0
    else if startsWith u '0' 'b' then wholeNumber 2 (u.drop 2)
    else if startsWith u '0' 'x' then wholeNumber 16 (u.drop 2)
    else match u with
      | [] => .error .tooShort
      | c :: _ =>
        if c = '0' then wholeNumber 8 u
        else if u.contains ':' then do
          let parts ← (splitOn ':' u).mapM (wholeNumber 10)
          .ok (parts.foldl (fun n d => n * 60 + d) 0)
        else wholeNumber 10 u
  .ok (if negative then -n else n)

/-- The sum of parts in base 60, least part first. -/
def sexagesimal (parts : List Float) : Float :=
  (parts.reverse.foldl (fun (sum, base) d => (sum + d * base, base * 60.0)) (0.0, 1.0)).1

def float (s : List Char) : Except Fault Float := do
  let (negative, u) ← signed ((s.filter (· != '_')).map Char.toLower)
  let x ←
    if u = ".inf".toList then .ok (1.0 / 0.0)
    else if u = ".nan".toList then .ok (0.0 / 0.0)
    else if u.contains ':' then do
      let parts ← (splitOn ':' u).mapM floatNumber
      .ok (sexagesimal parts)
    else floatNumber u
  .ok (if negative && u != ".nan".toList then -x else x)

def truth (s : List Char) : Except Fault Bool :=
  match Tag.truthWords.lookup (String.ofList (s.map Char.toLower)) with
  | some b => .ok b
  | none => .error .unknownWord

def binary (s : List Char) : Except Fault (List UInt8) :=
  if s.all (·.toNat < 128) then
    match base64? s with
    | some bs => .ok bs
    | none => .error .malformed
  else .error .malformed

/-- A day, or a moment when the stamp has a time. -/
def stamp (s : List Char) : Except Fault Value :=
  match Stamp.parse? (Tag.withoutLastBreak s) with
  | none => .error .noDate
  | some t =>
    match t.date?, t.time with
    | none, _ => .error .badValue
    | some d, none => .ok (.date d)
    | some d, some τ =>
      match Moment.of? d τ.hour τ.minute τ.second τ.microsecond τ.offset with
      | some m => .ok (.moment m)
      | none => .error .badValue

/-- The value of a text with a tag that a scalar may have. -/
def scalar? (tag : String) : Option (List Char → Except Fault Value) :=
  if tag = Tag.str then some fun s => .ok (.str (String.ofList s))
  else if tag = Tag.standard "null" then some fun _ => .ok .null
  else if tag = Tag.standard "bool" then some fun s => (truth s).map .bool
  else if tag = Tag.standard "int" then some fun s => (int s).map .int
  else if tag = Tag.standard "float" then some fun s => (float s).map .float
  else if tag = Tag.standard "binary" then some fun s => (binary s).map .bytes
  else if tag = Tag.standard "timestamp" then some stamp
  else none

end BlogSite.Yaml.Construct
