/-!
A place in a YAML text. Lines end at every Unicode line break, and a column counts the characters
since the last one; a byte order mark takes no column. The end of the text reads as NUL, which no
YAML text holds.
-/

namespace BlogSite.Yaml

/-- A character that ends a line. -/
def isBreak (c : Char) : Bool :=
  c == '\n' || c == '\r' || c == '\x85' || c == '\u2028' || c == '\u2029'

/-- The end of a line or of the text. -/
def endsLine (c : Char) : Bool := c == '\x00' || isBreak c

/-- A space or the end of a line. -/
def endsItem (c : Char) : Bool := c == ' ' || endsLine c

/-- A space, a tab or the end of a line. -/
def endsWord (c : Char) : Bool := c == '\t' || endsItem c

/-- The characters that a YAML text may hold. -/
def isAllowed (c : Char) : Bool :=
  let n := c.toNat
  n == 9 || n == 10 || n == 13 || (32 ≤ n && n ≤ 126) || n == 133 || (160 ≤ n && n ≤ 0xD7FF) ||
    (0xE000 ≤ n && n ≤ 0xFFFD) || 0x10000 ≤ n

/-- A character of an anchor, a tag handle or the name of a directive. -/
def isWordChar (c : Char) : Bool := c.isAlphanum || c == '-' || c == '_'

/-- The byte order mark. -/
def mark : Char := '\ufeff'

structure Cursor where
  rest : List Char
  index : Nat := 0
  line : Nat := 0
  column : Nat := 0

namespace Cursor

/-- The character here, or NUL at the end. -/
def peek (c : Cursor) : Char := c.rest.headD '\x00'

/-- The character some places on, or NUL beyond the end. -/
def peekAt (c : Cursor) (n : Nat) : Char := (c.rest[n]?).getD '\x00'

/-- One character on. `\r\n` ends one line, not two. -/
def next (c : Cursor) : Cursor :=
  match c.rest with
  | [] => c
  | ch :: rest =>
    if isBreak ch && !(ch == '\r' && rest.head? == some '\n') then
      { rest, index := c.index + 1, line := c.line + 1, column := 0 }
    else if ch == mark then { c with rest, index := c.index + 1 }
    else { c with rest, index := c.index + 1, column := c.column + 1 }

def skip (n : Nat) (c : Cursor) : Cursor := n.repeat next c

/-- The longest run of characters of a class, and the place after it. -/
def span (p : Char → Bool) (c : Cursor) : List Char × Cursor :=
  let run := c.rest.takeWhile p
  (run, c.skip run.length)

/-- The place after a run of characters of a class. -/
def skipWhile (p : Char → Bool) (c : Cursor) : Cursor := (c.span p).2

/-- Takes a line break, if there is one here: all but the two Unicode separators count as a line
feed. -/
def lineBreak (c : Cursor) : List Char × Cursor :=
  let ch := c.peek
  if ch == '\r' && c.peekAt 1 == '\n' then (['\n'], c.skip 2)
  else if ch == '\r' || ch == '\n' || ch == '\x85' then (['\n'], c.next)
  else if ch == '\u2028' || ch == '\u2029' then ([ch], c.next)
  else ([], c)

/-- Three equal marks and the end of a word: where a document starts or ends. -/
def atMarks (ch : Char) (c : Cursor) : Bool :=
  c.peek == ch && c.peekAt 1 == ch && c.peekAt 2 == ch && endsWord (c.peekAt 3)

def atDocumentBound (c : Cursor) : Bool := c.atMarks '-' || c.atMarks '.'

/-- More steps than there are characters left. -/
def steps (c : Cursor) : Nat := c.rest.length + 1

end Cursor

/-- Why a YAML text has no value. -/
inductive Fault where
  /-- The text is not YAML, or uses what plain data does not have. -/
  | malformed
  /-- A date or a number that does not exist. -/
  | badValue
  /-- A character number too large for any machine word. -/
  | outOfRange
  /-- A word tagged as a truth value that is none. -/
  | unknownWord
  /-- A number without any character. -/
  | tooShort
  /-- A text tagged as a date that has not the form of one. -/
  | noDate
  /-- A mapping tagged as a date. -/
  | notText
deriving DecidableEq

end BlogSite.Yaml
