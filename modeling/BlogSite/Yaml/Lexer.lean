import BlogSite.Yaml.Scalar
import BlogSite.Yaml.Token

/-!
From text to tokens. Indentation opens and closes blocks. A word on a line may turn out to be the
key of a mapping: it is remembered until its line ends or 1024 characters have passed, and marked
as a key when a colon follows.
-/

namespace BlogSite.Yaml

open BlogSite.Text

/-- A token that may turn out to be a key: its slot and where it starts. A needed one has to. -/
structure Candidate where
  slot : Nat
  needed : Bool
  index : Nat
  line : Nat
  column : Nat

/-- How far a key may reach. -/
def keyLimit : Nat := 1024

structure Lexer where
  place : Cursor
  /-- How many flow collections are open. -/
  flow : Nat := 0
  indent : Int := -1
  outer : List Int := []
  /-- Whether a key may start here. -/
  keyAllowed : Bool := true
  /-- The candidates, by the number of flow collections around them. -/
  candidates : List (Nat × Candidate) := []
  slots : Array Slot := #[]

namespace Lexer

abbrev Step := Lexer → Except Fault Lexer

def push (t : Token) (l : Lexer) : Lexer := { l with slots := l.slots.push { token := t } }

def inFlow (l : Lexer) : Bool := l.flow != 0

def dropCandidate (l : Lexer) : Lexer :=
  { l with candidates := l.candidates.filter (·.1 != l.flow) }

/-- Gives up the candidate of this level. -/
def forgetKey (l : Lexer) : Except Fault Lexer :=
  match l.candidates.lookup l.flow with
  | some k => if k.needed then .error .malformed else .ok l.dropCandidate
  | none => .ok l

/-- Gives up the candidates that the text has left behind. -/
def forgetStale (l : Lexer) : Except Fault Lexer :=
  let stale := fun k : Candidate =>
    k.line != l.place.line || keyLimit < l.place.index - k.index
  if l.candidates.any fun k => stale k.2 && k.2.needed then .error .malformed
  else .ok { l with candidates := l.candidates.filter fun k => !stale k.2 }

/-- Remembers the next token as a candidate. -/
def rememberKey (l : Lexer) : Except Fault Lexer :=
  if l.keyAllowed then do
    let l ← l.forgetKey
    let k : Candidate :=
      { slot := l.slots.size
        needed := !l.inFlow && l.indent == l.place.column
        index := l.place.index
        line := l.place.line
        column := l.place.column }
    .ok { l with candidates := (l.flow, k) :: l.candidates }
  else .ok l

/-- Closes the blocks that are indented further than a column. -/
def unwindFrom (column : Int) : List Int → Lexer → Lexer
  | [], l => l
  | i :: outer, l =>
    if l.indent > column then
      unwindFrom column outer { l.push .blockEnd with indent := i, outer }
    else l

def unwind (column : Int) (l : Lexer) : Lexer :=
  if l.inFlow then l else unwindFrom column l.outer l

/-- Opens a block at a column, unless it is open there already. -/
def openBlock (column : Nat) (l : Lexer) : Option Lexer :=
  if l.indent < column then some { l with indent := column, outer := l.indent :: l.outer }
  else none

/-- Opens a block with a token of its own at the place of the lexer. -/
def openHere (t : Token) (l : Lexer) : Except Fault Lexer :=
  if l.inFlow then .ok l
  else if !l.keyAllowed then .error .malformed
  else match l.openBlock l.place.column with
    | some l => .ok (l.push t)
    | none => .ok l

def advance (n : Nat) (l : Lexer) : Lexer := { l with place := l.place.skip n }

/-- Skips spaces, comments and line breaks. After a line break a key may start. -/
def skipBlanks : Nat → Lexer → Lexer
  | 0, l => l
  | fuel + 1, l =>
    let c := l.place.skipWhile (· == ' ')
    let c := if c.peek == '#' then c.skipWhile (!endsLine ·) else c
    if isBreak c.peek then
      skipBlanks fuel { l with place := c.lineBreak.2, keyAllowed := !l.inFlow || l.keyAllowed }
    else { l with place := c }

def toNextToken (l : Lexer) : Lexer :=
  let l := if l.place.index = 0 && l.place.peek == mark then l.advance 1 else l
  skipBlanks l.place.steps l

/-! ### Directives, anchors and tags -/

def isUriChar (c : Char) : Bool :=
  c.isAlphanum || "-;/?:@&=+$,_.!~*'()[]%".toList.contains c

/-- A text of bytes written as percent signs with two digits each. -/
def percentBytes : Nat → Cursor → Except Fault (List UInt8 × Cursor)
  | 0, _ => .error .malformed
  | fuel + 1, c =>
    if c.peek == '%' then
      let c := c.next
      match hexValue? c.peek, hexValue? (c.peekAt 1) with
      | some a, some b => do
        let (more, c) ← percentBytes fuel (c.skip 2)
        .ok (UInt8.ofNat (a * 16 + b) :: more, c)
      | _, _ => .error .malformed
    else .ok ([], c)

def uriParts : Nat → Cursor → Except Fault (List Char × Cursor)
  | 0, _ => .error .malformed
  | fuel + 1, c =>
    let (run, c) := c.span fun ch => isUriChar ch && ch != '%'
    if c.peek == '%' then do
      let (bytes, c) ← percentBytes c.steps c
      match String.fromUTF8? ⟨bytes.toArray⟩ with
      | none => .error .malformed
      | some s =>
        let (more, c) ← uriParts fuel c
        .ok (run ++ s.toList ++ more, c)
    else .ok (run, c)

/-- A text of the characters of a URI, not empty. -/
def uri (c : Cursor) : Except Fault (String × Cursor) := do
  let (text, after) ← uriParts c.steps c
  if after.index = c.index then .error .malformed else .ok (String.ofList text, after)

/-- A tag handle: an exclamation mark, or a word between two. -/
def tagHandle (c : Cursor) : Except Fault (String × Cursor) :=
  if c.peek != '!' then .error .malformed
  else
    let c := c.next
    if c.peek == ' ' then .ok ("!", c)
    else
      let (word, c) := c.span isWordChar
      if c.peek == '!' then .ok (String.ofList ('!' :: word ++ ['!']), c.next)
      else .error .malformed

def number (c : Cursor) : Except Fault (Nat × Cursor) :=
  let (ds, c) := c.span isAsciiDigit
  if ds.isEmpty then .error .malformed else .ok (ofDigits 10 (ds.filterMap digitValue?), c)

def skipSpaces (c : Cursor) : Cursor := c.skipWhile (· == ' ')

def directiveBody (name : List Char) (c : Cursor) : Except Fault (Directive × Cursor) := do
  if name = "YAML".toList then
    let (major, c) ← number (skipSpaces c)
    if c.peek != '.' then .error .malformed
    else
      let (minor, c) ← number c.next
      if endsItem c.peek then .ok (.version major minor, c) else .error .malformed
  else if name = "TAG".toList then
    let (handle, c) ← tagHandle (skipSpaces c)
    if c.peek != ' ' then .error .malformed
    else
      let (start, c) ← uri (skipSpaces c)
      if endsItem c.peek then .ok (.handle handle start, c) else .error .malformed
  else .ok (.other, c.skipWhile (!endsLine ·))

def directive (c : Cursor) : Except Fault (Directive × Cursor) := do
  let (name, c) := c.next.span isWordChar
  if name.isEmpty || !endsItem c.peek then .error .malformed
  else
    let (d, c) ← directiveBody name c
    .ok (d, ← Scalar.restOfLine c)

/-- The name after the sign of an anchor or an alias. -/
def anchorName (c : Cursor) : Except Fault (String × Cursor) :=
  let (name, c) := c.next.span isWordChar
  if name.isEmpty then .error .malformed
  else if endsWord c.peek || "?:,]\x7d%@`".toList.contains c.peek then
    .ok (String.ofList name, c)
  else .error .malformed

/-- Whether an exclamation mark follows before the item ends. -/
def hasHandle (cs : List Char) : Bool := (cs.takeWhile (!endsItem ·)).contains '!'

def tag (c : Cursor) : Except Fault (Token × Cursor) := do
  let ch := c.peekAt 1
  let (handle, suffix, c) ←
    if ch == '<' then do
      let (suffix, c) ← uri (c.skip 2)
      if c.peek == '>' then .ok (none, suffix, c.next) else .error .malformed
    else if endsWord ch then .ok (none, "!", c.next)
    else if hasHandle (c.rest.drop 1) then do
      let (handle, c) ← tagHandle c
      let (suffix, c) ← uri c
      .ok (some handle, suffix, c)
    else do
      let (suffix, c) ← uri c.next
      .ok (some "!", suffix, c)
  if endsItem c.peek then .ok (.tag handle suffix, c) else .error .malformed

/-! ### One token -/

def documentMark (t : Token) : Step := fun l => do
  let l ← (l.unwind (-1)).forgetKey
  .ok (({ l with keyAllowed := false }.advance 3).push t)

def directiveLine : Step := fun l => do
  let l ← (l.unwind (-1)).forgetKey
  let (d, c) ← directive l.place
  .ok ({ l with keyAllowed := false, place := c }.push (.directive d))

def flowStart (t : Token) : Step := fun l => do
  let l ← l.rememberKey
  .ok (({ l with flow := l.flow + 1, keyAllowed := true }.advance 1).push t)

def flowEnd (t : Token) : Step := fun l => do
  let l ← l.forgetKey
  .ok (({ l with flow := l.flow - 1, keyAllowed := false }.advance 1).push t)

def flowComma : Step := fun l => do
  let l ← l.forgetKey
  .ok (({ l with keyAllowed := true }.advance 1).push .flowEntry)

def sequenceEntry : Step := fun l => do
  let l ← l.openHere .blockSequenceStart
  let l ← { l with keyAllowed := true }.forgetKey
  .ok ((l.advance 1).push .blockEntry)

def explicitKey : Step := fun l => do
  let l ← l.openHere .blockMappingStart
  let l ← { l with keyAllowed := !l.inFlow }.forgetKey
  .ok ((l.advance 1).push .key)

/-- Marks a candidate as a key, which may open a mapping at its column. -/
def markKey (k : Candidate) (l : Lexer) : Lexer :=
  let opened := if l.inFlow then none else l.openBlock k.column
  let l := opened.getD l
  { l with
    slots := l.slots.modify k.slot fun s =>
      { s with isKey := true, opensMapping := opened.isSome } }

def colon : Step := fun l => do
  match l.candidates.lookup l.flow with
  | some k =>
    let l := l.dropCandidate.markKey k
    .ok (({ l with keyAllowed := false }.advance 1).push .value)
  | none =>
    let l ← l.openHere .blockMappingStart
    .ok (({ l with keyAllowed := !l.inFlow }.advance 1).push .value)

/-- A token that may be a key and that is read from its place on. -/
def keyLike (read : Cursor → Except Fault (Token × Cursor)) : Step := fun l => do
  let l ← l.rememberKey
  let (t, c) ← read l.place
  .ok ({ l with keyAllowed := false, place := c }.push t)

def anchorOrAlias (make : String → Token) : Step :=
  keyLike fun c => do
    let (name, c) ← anchorName c
    .ok (make name, c)

def quotedScalar (double : Bool) : Step :=
  keyLike fun c => do
    let (text, c) ← Scalar.quoted double c
    .ok (.scalar (String.ofList text) false, c)

def blockScalar (fold : Bool) : Step := fun l => do
  let l ← { l with keyAllowed := true }.forgetKey
  let (text, c) ← Scalar.block fold l.indent l.place
  .ok ({ l with place := c }.push (.scalar (String.ofList text) false))

def plainScalar : Step := fun l => do
  let l ← l.rememberKey
  let (text, brokeLine, c) := Scalar.plain l.inFlow (l.indent + 1) l.place
  .ok ({ l with keyAllowed := brokeLine, place := c }.push (.scalar (String.ofList text) true))

/-- The characters that no plain scalar starts with, unless a letter follows. -/
def isIndicator (c : Char) : Bool := "-?:,[]\x7b\x7d#&*!|>'\"%@`".toList.contains c

def startsPlain (l : Lexer) : Bool :=
  let ch := l.place.peek
  let after := l.place.peekAt 1
  (!endsWord ch && !isIndicator ch) ||
    (!endsWord after && (ch == '-' || (!l.inFlow && (ch == '?' || ch == ':'))))

/-- The next token, chosen by its first characters. -/
def nextToken : Step := fun l => do
  let ch := l.place.peek
  let after := l.place.peekAt 1
  if ch == '%' && l.place.column = 0 then l.directiveLine
  else if l.place.column = 0 && l.place.atMarks '-' then l.documentMark .documentStart
  else if l.place.column = 0 && l.place.atMarks '.' then l.documentMark .documentEnd
  else if ch == '[' then l.flowStart .flowSequenceStart
  else if ch == '\x7b' then l.flowStart .flowMappingStart
  else if ch == ']' then l.flowEnd .flowSequenceEnd
  else if ch == '\x7d' then l.flowEnd .flowMappingEnd
  else if ch == ',' then l.flowComma
  else if ch == '-' && endsWord after then l.sequenceEntry
  else if ch == '?' && (l.inFlow || endsWord after) then l.explicitKey
  else if ch == ':' && (l.inFlow || endsWord after) then l.colon
  else if ch == '*' then l.anchorOrAlias .alias
  else if ch == '&' then l.anchorOrAlias .anchor
  else if ch == '!' then l.keyLike tag
  else if ch == '|' && !l.inFlow then l.blockScalar false
  else if ch == '>' && !l.inFlow then l.blockScalar true
  else if ch == '\'' then l.quotedScalar false
  else if ch == '"' then l.quotedScalar true
  else if l.startsPlain then l.plainScalar
  else .error .malformed

def finish : Step := fun l => (l.unwind (-1)).forgetKey

/-- The tokens of a text; the last one tells where the rest cannot be read. -/
def tokens (l : Lexer) : List Token := l.slots.toList.flatMap Slot.tokens

def run : Nat → Lexer → List Token
  | 0, l => l.tokens ++ [.broken .malformed]
  | fuel + 1, l =>
    let ahead := l.toNextToken
    match ahead.forgetStale with
    | .error f => l.tokens ++ [.broken f]
    | .ok l =>
      let l := l.unwind l.place.column
      if l.place.rest.isEmpty then
        match l.finish with
        | .error f => l.tokens ++ [.broken f]
        | .ok l => l.tokens
      else
        match l.nextToken with
        | .error f => l.tokens ++ [.broken f]
        | .ok l => run fuel l

end Lexer

/-- The tokens of a text. Characters that YAML does not allow break it at once. -/
def Token.scan (s : List Char) : List Token :=
  if s.all isAllowed then Lexer.run (s.length + 1) { place := { rest := s } }
  else [.broken .malformed]

end BlogSite.Yaml
