import BlogSite.Text.Lines

/-!
Scripts as rows of lexemes: single characters of code, literals that are kept as they are, and the
blanks, comments and line ends between them. A slash begins a pattern literal where a division
cannot stand, which what comes before it tells.
-/

namespace BlogSite.Minify.Script

/-- A part of a script. -/
inductive Lexeme where
  | code (c : Char)
  /-- A string or a template. -/
  | literal (s : List Char)
  /-- A regular expression with its flags. -/
  | pattern (s : List Char)
  /-- A blank or a comment within lines. -/
  | blank
  /-- A line end with the comment before it. -/
  | lineEnd
deriving DecidableEq

/-- A character of an identifier: every one beyond ASCII may be. -/
def isIdent (c : Char) : Bool := c.isAlphanum || c == '_' || c == '$' || 127 ≤ c.toNat

def isLineEnd (c : Char) : Bool := c == '\n' || c == '\r'

/-- Control characters count as blanks. -/
def isSpace (c : Char) : Bool := c.toNat ≤ 32 && !isLineEnd c

/-- The length of a comment between asterisks, its first two characters apart. -/
def blockLength? : List Char → Option Nat
  | '*' :: '/' :: _ => some 2
  | _ :: cs => (blockLength? cs).map (· + 1)
  | [] => none

/-- The length of the inside of a quotation and its closing quote. Only templates go over line
ends that are not escaped. -/
def quotedLength? (quote : Char) : List Char → Option Nat
  | '\\' :: '\r' :: '\n' :: cs => (quotedLength? quote cs).map (· + 3)
  | '\\' :: _ :: cs => (quotedLength? quote cs).map (· + 2)
  | c :: cs =>
    if c = quote then some 1
    else if isLineEnd c && quote ≠ '\x60' then none
    else (quotedLength? quote cs).map (· + 1)
  | [] => none

/-- The length of the rest of a pattern literal, its flags apart. `inClass` tells that a bracket
is open, in which a slash is no end. -/
def patternLength? (inClass : Bool) : List Char → Option Nat
  | '\\' :: c :: cs => if isLineEnd c then none else (patternLength? inClass cs).map (· + 2)
  | c :: cs =>
    if isLineEnd c then none
    else if c = '/' && !inClass then some 1
    else if c = '[' && !inClass then (patternLength? true cs).map (· + 1)
    else if c = ']' && inClass then (patternLength? false cs).map (· + 1)
    else (patternLength? inClass cs).map (· + 1)
  | [] => none

/-- The length of a pattern literal at the start of a text, with its flags. -/
def pattern? : List Char → Option Nat
  | '/' :: c :: r =>
    if isLineEnd c || c = '/' || c = '*' then none
    else (patternLength? false (c :: r)).map fun n =>
      1 + n + (((c :: r).drop n).takeWhile fun f => 'a' ≤ f && f ≤ 'z').length
  | _ => none

/-- The gap at the start of a text: what it is and how long. -/
def gap? : List Char → Option (Lexeme × Nat)
  | '/' :: '*' :: r => (blockLength? r).map fun n => (.blank, n + 2)
  | '/' :: '/' :: r =>
    let n := (r.takeWhile (!isLineEnd ·)).length
    some (.lineEnd, 2 + n + (if n < r.length then 1 else 0))
  | c :: _ => if isLineEnd c then some (.lineEnd, 1) else if isSpace c then some (.blank, 1) else none
  | [] => none

/-- The text after the gaps at its start. The number bounds how many gaps are passed over. -/
def pastGaps : Nat → List Char → List Char
  | 0, s => s
  | n + 1, s =>
    match gap? s with
    | some (_, k) => pastGaps n (s.drop k)
    | none => s

/-- What was read so far, as far as it tells whether a slash begins a pattern. -/
structure Before where
  /-- The last character that is no gap. -/
  last : Option Char := none
  /-- The characters of the identifier that ends there, last one first. -/
  word : List Char := []
  /-- The gap since then, if there is one, and whether it ends with a line end. -/
  gap : Option Bool := some true

namespace Before

/-- Whether a pattern literal may begin here: after an operator or an opening bracket, after
`return`, or at the start of a line. -/
def allowsPattern (b : Before) : Bool :=
  b.last.any (fun c => "(,=:[!&|?\x7b\x7d;+*-".toList.contains c) ||
    b.word == "nruter".toList || b.gap == some true

/-- What was read, with one more lexeme. -/
def add (b : Before) : Lexeme → Before
  | .code c =>
    { last := some c
      word := if isIdent c then c :: (if b.gap.isSome then [] else b.word) else []
      gap := none }
  | .literal s | .pattern s => { last := s.getLast?, word := [], gap := none }
  | .blank => { b with gap := some false }
  | .lineEnd => { b with gap := some true }

end Before

/-- Whether a method is asked for after a pattern literal and gaps. -/
def methodFollows (s : List Char) : Bool :=
  match pastGaps s.length s with
  | '.' :: r => (pastGaps r.length r).head?.any fun c => 'a' ≤ c && c ≤ 'z'
  | _ => false

/-- The literal at the start of a text, with its length. -/
def literal? (b : Before) (s : List Char) : Option (Lexeme × Nat) :=
  match s with
  | [] => none
  | c :: r =>
    if c = '"' || c = '\'' || c = '\x60' then
      (quotedLength? c r).map fun n => (.literal (s.take (n + 1)), n + 1)
    else do
      let n ← pattern? s
      if b.allowsPattern || (b.last == some ')' && methodFollows (s.drop n)) then
        return (.pattern (s.take n), n)
      else none

/-- Reads a script from left to right. `skip` characters are read already. -/
def readFrom (b : Before) : Nat → List Char → List Lexeme
  | _, [] => []
  | skip + 1, _ :: cs => readFrom b skip cs
  | 0, c :: cs =>
    let (l, n) := ((gap? (c :: cs)).orElse fun _ => literal? b (c :: cs)).getD (.code c, 1)
    l :: readFrom (b.add l) (n - 1) cs

/-- The lexemes of a script. -/
def read (s : List Char) : List Lexeme := readFrom {} 0 s

end BlogSite.Minify.Script
