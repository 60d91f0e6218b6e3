import BlogSite.Text.Digit
import BlogSite.Yaml.Cursor

/-!
The text of scalars. A reader takes a place in the text and gives what it read with the place after
it. `indent` is the column that the surrounding block allows.
-/

namespace BlogSite.Yaml.Scalar

open BlogSite.Text

/-- Line breaks that fold into a text: a single line feed becomes a space. -/
def folded (first : List Char) (more : List Char) : List Char :=
  (if first != ['\n'] then first else if more.isEmpty then [' '] else []) ++ more

/-! ### Quoted scalars -/

/-- What an escaped character stands for. -/
def escapes : List (Char × Char) :=
  [('0', '\x00'), ('a', '\x07'), ('b', '\x08'), ('t', '\t'), ('\t', '\t'), ('n', '\n'),
   ('v', '\x0b'), ('f', '\x0c'), ('r', '\r'), ('e', '\x1b'), (' ', ' '), ('"', '"'),
   ('\\', '\\'), ('/', '/'), ('N', '\x85'), ('_', '\xa0'), ('L', '\u2028'), ('P', '\u2029')]

/-- How many hexadecimal digits follow an escape by number. -/
def escapeWidth? (c : Char) : Option Nat :=
  if c == 'x' then some 2 else if c == 'u' then some 4 else if c == 'U' then some 8 else none

/-- A number in hexadecimal digits. -/
def hexNumber (width : Nat) (c : Cursor) : Except Fault (Nat × Cursor) :=
  match (c.rest.take width).mapM hexValue? with
  | none => .error .malformed
  | some ds => if ds.length < width then .error .malformed else .ok (ofDigits 16 ds, c.skip width)

/-- The character that a pair of surrogates stands for, of which one is read. -/
def lowSurrogate? (high : Nat) (c : Cursor) : Option (Char × Cursor) :=
  if 0xD800 ≤ high && high < 0xDC00 && c.peek == '\\' && c.peekAt 1 == 'u' then
    match hexNumber 4 (c.skip 2) with
    | .ok (low, c) =>
      if 0xDC00 ≤ low && low < 0xE000 then
        some (Char.ofNat (0x10000 + (high - 0xD800) * 0x400 + (low - 0xDC00)), c)
      else none
    | .error _ => none
  else none

/-- A character by its number, or by the numbers of two surrogates. -/
def numbered (width : Nat) (c : Cursor) : Except Fault (Char × Cursor) := do
  let (n, c) ← hexNumber width c
  if 0x7FFFFFFF < n then .error .outOfRange
  else if 0x10FFFF < n then .error .badValue
  else .ok ((lowSurrogate? n c).getD (Char.ofNat n, c))

/-- Empty lines inside quotes. A document may not start or end there. -/
def breaksInQuotes : Nat → Cursor → Except Fault (List Char × Cursor)
  | 0, _ => .error .malformed
  | fuel + 1, c =>
    if c.atDocumentBound then .error .malformed
    else
      let c := c.skipWhile fun ch => ch == ' ' || ch == '\t'
      if isBreak c.peek then do
        let (b, c) := c.lineBreak
        let (more, c) ← breaksInQuotes fuel c
        .ok (b ++ more, c)
      else .ok ([], c)

/-- What stands between quotes up to the next space, line break or closing quote. -/
def wordInQuotes (double : Bool) : Nat → Cursor → Except Fault (List Char × Cursor)
  | 0, _ => .error .malformed
  | fuel + 1, c => do
    let plain := fun ch => !(ch == '\'' || ch == '"' || ch == '\\' || endsWord ch)
    let (run, c) := c.span plain
    let ch := c.peek
    let onward := fun (piece : List Char) (c : Cursor) => do
      let (more, c) ← wordInQuotes double fuel c
      .ok (run ++ piece ++ more, c)
    if !double && ch == '\'' && c.peekAt 1 == '\'' then onward ['\''] (c.skip 2)
    else if (double && ch == '\'') || (!double && (ch == '"' || ch == '\\')) then
      onward [ch] c.next
    else if double && ch == '\\' then
      let c := c.next
      let ch := c.peek
      match escapes.lookup ch with
      | some e => onward [e] c.next
      | none =>
        match escapeWidth? ch with
        | some width =>
          let (e, c) ← numbered width c.next
          onward [e] c
        | none =>
          if isBreak ch then
            let (more, c) ← breaksInQuotes fuel c.lineBreak.2
            onward more c
          else .error .malformed
    else .ok (run, c)

/-- Spaces and line breaks between quotes. -/
def spacesInQuotes (fuel : Nat) (c : Cursor) : Except Fault (List Char × Cursor) := do
  let (spaces, c) := c.span fun ch => ch == ' ' || ch == '\t'
  if c.rest.isEmpty then .error .malformed
  else if isBreak c.peek then
    let (b, c) := c.lineBreak
    let (more, c) ← breaksInQuotes fuel c
    .ok (folded b more, c)
  else .ok (spaces, c)

/-- Words and spaces up to the closing quote. Each step takes at least one character, so `fuel` stays
above the number of those left. -/
def quotedParts (double : Bool) (quote : Char) : Nat → Cursor → Except Fault (List Char × Cursor)
  | 0, _ => .error .malformed
  | fuel + 1, c => do
    let (word, c) ← wordInQuotes double (fuel + 1) c
    if c.peek == quote then .ok (word, c.next)
    else
      let (spaces, c) ← spacesInQuotes (fuel + 1) c
      let (more, c) ← quotedParts double quote fuel c
      .ok (word ++ spaces ++ more, c)

/-- A scalar between single or double quotes. -/
def quoted (double : Bool) (c : Cursor) : Except Fault (List Char × Cursor) :=
  quotedParts double (if double then '"' else '\'') c.steps c.next

/-! ### Plain scalars -/

/-- The spaces after a word of a plain scalar, and whether they hold a line break; `none` when a
document starts or ends there. -/
structure Gap where
  text : List Char
  brokeLine : Bool
  atBound : Bool
  after : Cursor

def plainBreaks : Nat → Cursor → List Char × Bool × Cursor
  | 0, c => ([], false, c)
  | fuel + 1, c =>
    if c.peek == ' ' then plainBreaks fuel c.next
    else if isBreak c.peek then
      let (b, c) := c.lineBreak
      if c.atDocumentBound then (b, true, c)
      else
        let (more, bound, c) := plainBreaks fuel c
        (b ++ more, bound, c)
    else ([], false, c)

def plainGap (fuel : Nat) (c : Cursor) : Gap :=
  let (spaces, c) := c.span (· == ' ')
  if isBreak c.peek then
    let (b, c) := c.lineBreak
    if c.atDocumentBound then ⟨[], true, true, c⟩
    else
      let (more, bound, c) := plainBreaks fuel c
      ⟨folded b more, true, bound, c⟩
  else ⟨spaces, false, false, c⟩

/-- The length of the word of a plain scalar that starts here. -/
def plainLength (inFlow : Bool) : List Char → Nat
  | [] => 0
  | ch :: rest =>
    let after := rest.headD '\x00'
    let colonEnds := ch == ':' &&
      (endsWord after || (inFlow && ",[]\x7b\x7d".toList.contains after))
    if endsWord ch || colonEnds || (inFlow && ",?[]\x7b\x7d".toList.contains ch) then 0
    else plainLength inFlow rest + 1

/-- A plain scalar: its text, whether a line was broken after its last word, and the place after
it. Each word takes at least one character, so `fuel` stays above the number of those left. -/
def plainParts (inFlow : Bool) (indent : Int) : Nat → List Char → Cursor → List Char × Bool × Cursor
  | 0, _, c => ([], false, c)
  | fuel + 1, spaces, c =>
    let length := if c.peek == '#' then 0 else plainLength inFlow c.rest
    if length = 0 then ([], !spaces.isEmpty && spaces.any isBreak, c)
    else
      let word := c.rest.take length
      let gap := plainGap (fuel + 1) (c.skip length)
      let here := spaces ++ word
      if gap.atBound || gap.text.isEmpty || gap.after.peek == '#' ||
          (!inFlow && gap.after.column < indent) then (here, gap.brokeLine, gap.after)
      else
        let (more, broke, c) := plainParts inFlow indent fuel gap.text gap.after
        if more.isEmpty then (here, gap.brokeLine, c) else (here ++ more, broke, c)

def plain (inFlow : Bool) (indent : Int) (c : Cursor) : List Char × Bool × Cursor :=
  plainParts inFlow indent c.steps [] c

/-! ### Block scalars -/

/-- What becomes of the line breaks at the end of a block scalar. -/
inductive Chomp where
  | strip
  | clip
  | keep
deriving DecidableEq

def chomp? (c : Char) : Option Chomp :=
  if c == '+' then some .keep else if c == '-' then some .strip else none

def increment? (c : Char) : Option Nat :=
  if isAsciiDigit c then digitValue? c else none

/-- The indicators after the bar of a block scalar, in either order. -/
def indicators (c : Cursor) : Except Fault ((Chomp × Option Nat) × Cursor) := do
  let (chomp, inc, c) ←
    match chomp? c.peek with
    | some k =>
      let c := c.next
      match increment? c.peek with
      | some n => if n = 0 then .error .malformed else .ok (k, some n, c.next)
      | none => .ok (k, none, c)
    | none =>
      match increment? c.peek with
      | some n =>
        if n = 0 then .error .malformed
        else
          let c := c.next
          match chomp? c.peek with
          | some k => .ok (k, some n, c.next)
          | none => .ok (.clip, some n, c)
      | none => .ok (.clip, none, c)
  if endsItem c.peek then .ok ((chomp, inc), c) else .error .malformed

/-- The rest of a line that may hold only spaces and a comment. -/
def restOfLine (c : Cursor) : Except Fault Cursor :=
  let c := c.skipWhile (· == ' ')
  let c := if c.peek == '#' then c.skipWhile (!endsLine ·) else c
  if endsLine c.peek then .ok c.lineBreak.2 else .error .malformed

/-- Empty lines before a block scalar, and the widest column that spaces reach there. -/
def leadingLines : Nat → Nat → Cursor → List Char × Nat × Cursor
  | 0, widest, c => ([], widest, c)
  | fuel + 1, widest, c =>
    if c.peek == ' ' then
      let c := c.next
      leadingLines fuel (max widest c.column) c
    else if isBreak c.peek then
      let (b, c) := c.lineBreak
      let (more, widest, c) := leadingLines fuel widest c
      (b ++ more, widest, c)
    else ([], widest, c)

/-- Spaces up to a column. -/
def indentTo (indent : Nat) : Nat → Cursor → Cursor
  | 0, c => c
  | fuel + 1, c => if c.column < indent && c.peek == ' ' then indentTo indent fuel c.next else c

/-- Empty lines inside a block scalar. -/
def blockBreaks (indent : Nat) : Nat → Cursor → List Char × Cursor
  | 0, c => ([], c)
  | fuel + 1, c =>
    let c := indentTo indent indent c
    if isBreak c.peek then
      let (b, c) := c.lineBreak
      let (more, c) := blockBreaks indent fuel c
      (b ++ more, c)
    else ([], c)

/-- The lines of a block scalar, with the break after the last line and the empty lines that
follow. Each step takes at least one character, so `fuel` stays above the number of those left. -/
def blockLines (fold : Bool) (indent : Nat) :
    Nat → List Char → Cursor → List Char × List Char × List Char × Cursor
  | 0, breaks, c => ([], [], breaks, c)
  | fuel + 1, breaks, c =>
    if c.column == indent && !c.rest.isEmpty then
      let indented := fun ch => ch == ' ' || ch == '\t'
      let first := c.peek
      let (line, c) := c.span (!endsLine ·)
      let (b, c) := c.lineBreak
      let (next, c) := blockBreaks indent (fuel + 1) c
      let here := breaks ++ line
      if c.column == indent && !c.rest.isEmpty then
        let between :=
          if fold && b == ['\n'] && !indented first && !indented c.peek then
            if next.isEmpty then [' '] else []
          else b
        let (more, last, tail, c) := blockLines fold indent fuel next c
        (here ++ between ++ more, last, tail, c)
      else (here, b, next, c)
    else ([], [], breaks, c)

/-- A block scalar. `parent` is the indentation of the block around it. -/
def block (fold : Bool) (parent : Int) (c : Cursor) : Except Fault (List Char × Cursor) := do
  let ((chomp, inc), c) ← indicators c.next
  let c ← restOfLine c
  let least : Nat := (max (parent + 1) 1).toNat
  let (breaks, indent, c) :=
    match inc with
    | some n =>
      let indent := least + n - 1
      let (breaks, c) := blockBreaks indent c.steps c
      (breaks, indent, c)
    | none =>
      let (breaks, widest, c) := leadingLines c.steps 0 c
      (breaks, max least widest, c)
  let (text, last, tail, c) := blockLines fold indent c.steps breaks c
  .ok (text ++ (if chomp = .strip then [] else last) ++ (if chomp = .keep then tail else []), c)

end BlogSite.Yaml.Scalar
