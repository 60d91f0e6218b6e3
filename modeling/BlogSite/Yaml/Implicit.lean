import BlogSite.Yaml.Stamp

/-!
The types of plain scalars. A scalar without a tag is a truth value, a number, a day, nothing or a
merge mark when it has the form of one, and else a text.
-/

namespace BlogSite.Yaml

open BlogSite.Text

namespace Tag

/-- The space of names that the standard tags live in. -/
def space : String := "tag:yaml.org,2002:"

def standard (name : String) : String := space ++ name

def str : String := standard "str"

def seq : String := standard "seq"

def map : String := standard "map"

def merge : String := standard "merge"

def value : String := standard "value"

/-- The words for truth values, in lower case. -/
def truthWords : List (String × Bool) :=
  [("yes", true), ("no", false), ("true", true), ("false", false), ("on", true), ("off", false)]

/-- A word in lower case, in upper case, or with a capital. -/
def inThreeCases (w : List Char) (word : String) : Bool :=
  let low := word.toList
  w = low || w = low.map Char.toUpper ||
    w = low.head?.toList.map Char.toUpper ++ low.drop 1

def isTruth (s : List Char) : Bool := truthWords.any fun w => inThreeCases s w.1

def isNull (s : List Char) : Bool := s.isEmpty || s = ['~'] || inThreeCases s "null"

def unsigned : List Char → List Char
  | '-' :: r | '+' :: r => r
  | s => s

def isDigitOrLine (c : Char) : Bool := isAsciiDigit c || c == '_'

/-- Parts after colons, each a number below 60 of one or two digits. -/
def isSexagesimalTail (parts : List (List Char)) : Bool :=
  !parts.isEmpty && parts.all fun p => match p with
    | [a] => isAsciiDigit a
    | [a, b] => '0' ≤ a && a ≤ '5' && isAsciiDigit b
    | _ => false

/-- A digit and then digits and low lines. -/
def isDigits (p : Char → Bool) (s : List Char) : Bool := match s with
  | c :: r => p c && r.all isDigitOrLine
  | [] => false

def isInt (s : List Char) : Bool :=
  let u := unsigned s
  match u with
  | ['0'] => true
  | '0' :: 'b' :: r => !r.isEmpty && r.all fun c => c == '0' || c == '1' || c == '_'
  | '0' :: 'x' :: r => !r.isEmpty && r.all fun c => (hexValue? c).isSome || c == '_'
  | '0' :: r => !r.isEmpty && r.all fun c => ('0' ≤ c && c ≤ '7') || c == '_'
  | u =>
    let first := fun c => '1' ≤ c && c ≤ '9'
    match splitOn ':' u with
    | [whole] => isDigits first whole
    | whole :: parts => isDigits first whole && isSexagesimalTail parts
    | [] => false

/-- Nothing, or an `e`, a sign and digits. -/
def isExponent : List Char → Bool
  | [] => true
  | e :: sign :: r => (e == 'e' || e == 'E') && (sign == '-' || sign == '+') && !r.isEmpty &&
      r.all isAsciiDigit
  | _ => false

def isNan (s : List Char) : Bool :=
  s = "nan".toList || s = "NaN".toList || s = "NAN".toList

def isFloat (s : List Char) : Bool :=
  let u := unsigned s
  match u with
  | '.' :: r =>
    inThreeCases r "inf" || (s = u &&
      (isNan r || (isDigits isAsciiDigit (r.takeWhile isDigitOrLine) &&
        isExponent (r.dropWhile isDigitOrLine))))
  | u =>
    let whole := u.takeWhile (· != '.')
    match u.dropWhile (· != '.') with
    | '.' :: r =>
      let rest := r.dropWhile isDigitOrLine
      (isDigits isAsciiDigit whole && isExponent rest) ||
        (rest.isEmpty && match splitOn ':' whole with
          | first :: parts => isDigits isAsciiDigit first && isSexagesimalTail parts
          | [] => false)
    | _ => false

def isStamp (s : List Char) : Bool := (Stamp.parse? s).any fun t => t.full || t.time.isSome

/-- A line feed at the end of a scalar does not count. -/
def withoutLastBreak (s : List Char) : List Char :=
  if s.getLast? = some '\n' && s.length != 1 then s.dropLast else s

/-- The tag of a scalar that has none of its own. -/
def ofPlain (text : List Char) : String :=
  let s := withoutLastBreak text
  if isTruth s then standard "bool"
  else if isFloat s then standard "float"
  else if isInt s then standard "int"
  else if s = ['<', '<'] then merge
  else if isNull s then standard "null"
  else if isStamp s then standard "timestamp"
  else if s = ['='] then value
  else if s = ['!'] || s = ['&'] || s = ['*'] then standard "yaml"
  else str

end Tag

end BlogSite.Yaml
