import BlogSite.Minify.Css.Glyph

/-!
Reading the text of a style sheet: strings, comments that are marked as important and the arguments
of some functions are kept, other comments are left out.
-/

namespace BlogSite.Minify.Css

open BlogSite.Text

/-- A text up to the first occurrence of another, with the number of characters read. -/
def upTo (stop : List Char) : List Char → Option (List Char × Nat)
  | [] => none
  | c :: cs =>
    if stop.isPrefixOf (c :: cs) then some ([], stop.length)
    else (upTo stop cs).map fun (s, n) => (c :: s, n + 1)

/-- The inside of a string up to its closing quote, with the number of characters read. -/
def stringInside (quote : Char) : List Char → Option (List Char × Nat)
  | [] => none
  | '\\' :: c :: cs => (stringInside quote cs).map fun (s, n) => ('\\' :: c :: s, n + 2)
  | c :: cs =>
    if c = quote then some ([], 1) else (stringInside quote cs).map fun (s, n) => (c :: s, n + 1)

/-- The arguments of a function up to its closing bracket, with the number of characters read.
`depth` brackets are open inside. -/
def arguments : Nat → List Char → Option (List Char × Nat)
  | _, [] => none
  | depth, c :: cs =>
    let onward := fun d => (arguments d cs).map fun (s, n) => (c :: s, n + 1)
    if c = '(' then onward (depth + 1)
    else if c = ')' then
      match depth with
      | 0 => some ([], 1)
      | d + 1 => onward d
    else onward depth

/-- Functions whose arguments are kept, and whether blanks in them matter. -/
def keptFunctions : List (String × Bool) :=
  [("url(data:", false), ("url('data:", false), ("url(\"data:", false), ("calc(", true),
   ("hsl(", false), ("hsla(", false)]

/-- A call at the start of a text: the name with the bracket, and the arguments as they are kept. -/
def call? (s : List Char) : Option (Sheet × Nat) :=
  keptFunctions.findSome? fun (start, blanksMatter) =>
    let name := start.toList.takeWhile (· != '(')
    let head := (s.take start.length).map Char.toLower
    if head = start.toList then
      (arguments 0 (s.drop (name.length + 1))).map fun (args, n) =>
        let tidy := trim (if blanksMatter then args else args.filter (!isBlank ·))
        (ofChars (s.take (name.length + 1)) ++ [.kept tidy, .char ')'], name.length + 1 + n)
    else none

/-- A comment at the start of a text. It is kept when it begins with an exclamation mark, or when
it is empty and stands after `>`. -/
def comment? (back : Option Char) (s : List Char) : Option (Sheet × Nat) :=
  match s with
  | '/' :: '*' :: r =>
    let (inside, n) := (upTo ['*', '/'] r).getD (r, r.length)
    let keep := inside.head? == some '!' || (inside.isEmpty && back == some '>')
    some (if keep then ofText "/*" ++ .kept inside :: ofText "*/" else [], n + 2)
  | _ => none

/-- A string at the start of a text. -/
def string? : List Char → Option (Sheet × Nat)
  | c :: r =>
    if c = '"' || c = '\'' then
      (stringInside c r).map fun (inside, n) => ([.char c, .kept inside, .char c], n + 1)
    else none
  | [] => none

/-- Reads a text from left to right. `back` is the character before it, and `skip` characters are
read already. -/
def readFrom : Option Char → Nat → List Char → Sheet
  | _, _, [] => []
  | _, skip + 1, c :: cs => readFrom (some c) skip cs
  | back, 0, c :: cs =>
    match (comment? back (c :: cs)).orElse fun _ =>
        (string? (c :: cs)).orElse fun _ => call? (c :: cs) with
    | some (g, n) => g ++ readFrom (some c) (n - 1) cs
    | none => .char c :: readFrom (some c) 0 cs

/-- The sheet that a text spells. -/
def read (s : List Char) : Sheet := readFrom none 0 s

end BlogSite.Minify.Css
