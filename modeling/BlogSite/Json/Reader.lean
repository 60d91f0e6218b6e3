import BlogSite.Decimal.Layout
import BlogSite.Value.Basic

/-!
Reading JSON. Beside the standard's values the three names of numbers that are not finite are read.
Of two members with one name the later one counts.
-/

namespace BlogSite.Json

open BlogSite.Text

/-- Why a text is no JSON value. -/
inductive Fault where
  | malformed
  /-- An integer with more digits than are read. -/
  | tooLong
deriving DecidableEq

/-- The most digits that an integer may have. -/
def digitLimit : Nat := 4300

def isBlank (c : Char) : Bool := c == ' ' || c == '\t' || c == '\n' || c == '\r'

def skipBlanks (s : List Char) : List Char := s.dropWhile isBlank

/-- What follows a word at the head of a text. -/
def after? (word : String) (s : List Char) : Option (List Char) :=
  if word.toList.isPrefixOf s then some (s.drop word.length) else none

/-! ### Strings -/

/-- Four hexadecimal digits as a number. -/
def unit? (s : List Char) : Option (Nat × List Char) :=
  match s with
  | a :: b :: c :: d :: r => do
    some (ofDigits 16 [← hexValue? a, ← hexValue? b, ← hexValue? c, ← hexValue? d], r)
  | _ => none

/-- A character by its number. A pair of surrogates is one character. -/
def numbered? (s : List Char) : Option (Char × List Char) := do
  let (high, r) ← unit? s
  let alone := (Char.ofNat high, r)
  if 0xD800 ≤ high && high ≤ 0xDBFF then
    match r with
    | '\\' :: 'u' :: r' =>
      match unit? r' with
      | some (low, r'') =>
        if 0xDC00 ≤ low && low ≤ 0xDFFF then
          some (Char.ofNat (0x10000 + (high - 0xD800) * 0x400 + (low - 0xDC00)), r'')
        else some alone
      | none => some alone
    | _ => some alone
  else some alone

/-- What a letter after a backslash stands for. -/
def escapes : List (Char × Char) :=
  [('"', '"'), ('\\', '\\'), ('/', '/'), ('b', '\x08'), ('f', '\x0c'), ('n', '\n'), ('r', '\r'),
   ('t', '\t')]

/-- The rest of a string after its opening quote, and what follows it. -/
def chars : Nat → List Char → Except Fault (List Char × List Char)
  | 0, _ | _, [] => .error .malformed
  | fuel + 1, c :: s => do
    if c = '"' then .ok ([], s)
    else if c = '\\' then
      match s with
      | 'u' :: s =>
        match numbered? s with
        | some (d, s) =>
          let (more, s) ← chars fuel s
          .ok (d :: more, s)
        | none => .error .malformed
      | e :: s =>
        match escapes.lookup e with
        | some d =>
          let (more, s) ← chars fuel s
          .ok (d :: more, s)
        | none => .error .malformed
      | [] => .error .malformed
    else if c.toNat < 32 then .error .malformed
    else
      let (more, s) ← chars fuel s
      .ok (c :: more, s)

/-! ### Numbers -/

/-- A fraction: a point and at least one digit; else nothing is taken. -/
def fraction (s : List Char) : List Char × List Char :=
  match s with
  | '.' :: r =>
    let ds := r.takeWhile isAsciiDigit
    if ds.isEmpty then ([], s) else (ds, r.drop ds.length)
  | _ => ([], s)

/-- An exponent with at least one digit; else nothing is taken. -/
def exponent? (s : List Char) : Option (Int × List Char) :=
  match s with
  | e :: r =>
    if e = 'e' || e = 'E' then
      let (negative, r) := Decimal.sign r
      let ds := r.takeWhile isAsciiDigit
      if ds.isEmpty then none
      else
        let n : Int := ofDigits 10 (ds.filterMap digitValue?)
        some (if negative then -n else n, r.drop ds.length)
    else none
  | [] => none

/-- Digits without a zero at their head, or a single zero. -/
def whole (s : List Char) : List Char × List Char :=
  match s with
  | '0' :: r => (['0'], r)
  | _ => (s.takeWhile isAsciiDigit, s.dropWhile isAsciiDigit)

/-- The number at the head of a text: an integer unless it has a fraction or an exponent. -/
def number (s : List Char) : Except Fault (Value × List Char) :=
  let (negative, u) := match s with
    | '-' :: r => (true, r)
    | _ => (false, s)
  let (ds, r) := whole u
  if ds.isEmpty then .error .malformed
  else
    let (part, r) := fraction r
    match part, exponent? r with
    | [], none =>
      if digitLimit < ds.length then .error .tooLong
      else
        let n : Int := ofDigits 10 (ds.filterMap digitValue?)
        .ok (.int (if negative then -n else n), r)
    | part, e =>
      let (power, r) := e.getD (0, r)
      let digits := ofDigits 10 ((ds ++ part).filterMap digitValue?)
      .ok (.float (Decimal.toFloat negative digits (power - (part.length : Nat))), r)

/-- The values that are written as words. -/
def words : List (String × Value) :=
  [("null", .null), ("true", .bool true), ("false", .bool false), ("NaN", .float (0.0 / 0.0)),
   ("Infinity", .float (1.0 / 0.0)), ("-Infinity", .float (-(1.0 / 0.0)))]

def word? (s : List Char) : Option (Value × List Char) :=
  words.findSome? fun w => (after? w.1 s).map fun r => (w.2, r)

/-! ### Values -/

mutual

def value : Nat → List Char → Except Fault (Value × List Char)
  | 0, _ => .error .malformed
  | fuel + 1, s =>
    match s with
    | '"' :: r => do
      let (cs, r) ← chars (r.length + 1) r
      .ok (.str (String.ofList cs), r)
    | '[' :: r => do
      let r := skipBlanks r
      match r with
      | ']' :: r => .ok (.list [], r)
      | _ =>
        let (items, r) ← items fuel r
        .ok (.list items, r)
    | '\x7b' :: r => do
      let r := skipBlanks r
      match r with
      | '\x7d' :: r => .ok (.map [], r)
      | _ =>
        let (members, r) ← members fuel r
        .ok (.map (Entries.ofList members), r)
    | _ =>
      match word? s with
      | some found => .ok found
      | none => number s

/-- The items of an array from its first one on. -/
def items : Nat → List Char → Except Fault (List Value × List Char)
  | 0, _ => .error .malformed
  | fuel + 1, s => do
    let (v, r) ← value fuel s
    match skipBlanks r with
    | ']' :: r => .ok ([v], r)
    | ',' :: r =>
      let (more, r) ← items fuel (skipBlanks r)
      .ok (v :: more, r)
    | _ => .error .malformed

/-- The members of an object from its first one on. -/
def members : Nat → List Char → Except Fault (List (Value × Value) × List Char)
  | 0, _ => .error .malformed
  | fuel + 1, s => do
    match s with
    | '"' :: r =>
      let (key, r) ← chars (r.length + 1) r
      match skipBlanks r with
      | ':' :: r =>
        let (v, r) ← value fuel (skipBlanks r)
        let entry := (Value.str (String.ofList key), v)
        match skipBlanks r with
        | '\x7d' :: r => .ok ([entry], r)
        | ',' :: r =>
          let (more, r) ← members fuel (skipBlanks r)
          .ok (entry :: more, r)
        | _ => .error .malformed
      | _ => .error .malformed
    | _ => .error .malformed

end

/-- The value of a text that holds one JSON value and blanks around it. -/
def read (text : String) : Except Fault Value := do
  let s := text.toList
  let (v, r) ← value (s.length + 1) (skipBlanks s)
  if (skipBlanks r).isEmpty then .ok v else .error .malformed

end BlogSite.Json
